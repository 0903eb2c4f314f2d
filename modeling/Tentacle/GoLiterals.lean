import Mathlib.Data.List.Basic
import Mathlib.Tactic.Ring

/-!
# Go string literals

`strconv.Quote` and `strconv.Unquote`. Which characters are printable is a table of the library,
and a parameter here. A text is a list of Unicode characters, so an escape of a single byte beyond
ASCII, which is no character, does not occur in what is unquoted.
-/

namespace GoLiterals

abbrev Text := List Char

/-- `strconv.IsPrint`. No control character is printable. -/
class Printable where
  isPrint : Char → Bool
  control : ∀ c : Char, c.toNat < 32 → isPrint c = false

/-- The letters of the escapes for control characters. -/
def controls : List (Char × Char) :=
  [('\x07', 'a'), ('\x08', 'b'), ('\x0c', 'f'), ('\n', 'n'), ('\r', 'r'), ('\t', 't'),
    ('\x0b', 'v')]

/-- The last `k` hexadecimal digits, the most significant one first. -/
def hex : Nat → Nat → Text
  | 0, _ => []
  | k + 1, n => Nat.digitChar (n / 16 ^ k % 16) :: hex k n

section Quote

variable [Printable]

def escapeRune (c : Char) : Text :=
  if c = '"' ∨ c = '\\' then ['\\', c]
  else if Printable.isPrint c then [c]
  else
    match controls.lookup c with
    | some letter => ['\\', letter]
    | none =>
      if c.toNat < 32 ∨ c.toNat = 127 then '\\' :: 'x' :: hex 2 c.toNat
      else if c.toNat < 0x10000 then '\\' :: 'u' :: hex 4 c.toNat
      else '\\' :: 'U' :: hex 8 c.toNat

def quote (s : Text) : Text := '"' :: (s.flatMap escapeRune ++ ['"'])

end Quote

def unhex (c : Char) : Option Nat :=
  if '0' ≤ c ∧ c ≤ '9' then some (c.toNat - '0'.toNat)
  else if 'a' ≤ c ∧ c ≤ 'f' then some (c.toNat - 'a'.toNat + 10)
  else if 'A' ≤ c ∧ c ≤ 'F' then some (c.toNat - 'A'.toNat + 10)
  else none

def hexValue (acc : Nat) : Text → Option Nat
  | [] => some acc
  | c :: s => (unhex c).bind fun d => hexValue (16 * acc + d) s

def octalValue (s : Text) : Option Nat :=
  s.foldlM (fun acc c => if '0' ≤ c ∧ c ≤ '7' then some (8 * acc + (c.toNat - '0'.toNat)) else none)
    0

/-- The character with a number below the bound, when there is one. -/
def rune (bound n : Nat) : Option Char :=
  if n < bound ∧ n.isValidChar then some (.ofNat n) else none

/-- How many digits follow the letter of a numeric escape, and the bound of its values. -/
def hexDigits : Char → Option (Nat × Nat)
  | 'x' => some (2, 0x80)
  | 'u' => some (4, 0x10000)
  | 'U' => some (8, 0x110000)
  | _ => none

/-- `UnquoteChar`: the first character of a text within these quotes, and the rest. -/
def unquoteChar (mark : Char) : Text → Option (Char × Text)
  | [] => none
  | '\\' :: [] => none
  | '\\' :: c :: s =>
    match (controls.map Prod.swap).lookup c, hexDigits c with
    | some v, _ => some (v, s)
    | none, some (k, bound) =>
      if s.length < k then none
      else ((hexValue 0 (s.take k)).bind (rune bound)).map fun v => (v, s.drop k)
    | none, none =>
      if c = '\\' ∨ c = mark then some (c, s)
      else if '0' ≤ c ∧ c ≤ '7' ∧ 2 ≤ s.length then
        ((octalValue (c :: s.take 2)).bind (rune 0x80)).map fun v => (v, s.drop 2)
      else none
  | c :: s => if c = mark then none else some (c, s)

/-- The characters up to the closing quote, with which the text ends. -/
def unquoteRest (mark : Char) : Nat → Text → Option Text
  | 0, _ => none
  | _ + 1, [] => none
  | n + 1, c :: s =>
    if c = mark then if s = [] then some [] else none
    else if c = '\n' then none
    else (unquoteChar mark (c :: s)).bind fun (v, rest) => (unquoteRest mark n rest).map (v :: ·)

def unquote : Text → Option Text
  | [] => none
  | mark :: s =>
    if mark = '"' then unquoteRest mark s.length s
    else if mark = '\'' then (unquoteRest mark s.length s).filter fun v => v.length ≤ 1
    else if mark = '`' ∧ s.idxOf '`' + 1 = s.length then some (s.dropLast.filter (· ≠ '\r'))
    else none

/-! ## What was quoted is unquoted -/

theorem length_hex (k n : Nat) : (hex k n).length = k := by
  induction k with
  | zero => rfl
  | succ k ih => rw [hex, List.length_cons, ih]

theorem hex_plain {k n : Nat} {c : Char} (h : c ∈ hex k n) : c ≠ '\n' ∧ c ≠ '"' ∧ c ≠ '\\' := by
  have hdigit : ∀ d < 16, Nat.digitChar d ≠ '\n' ∧ Nat.digitChar d ≠ '"' ∧
      Nat.digitChar d ≠ '\\' := by decide
  induction k with
  | zero => cases h
  | succ k ih =>
    obtain rfl | h := List.mem_cons.mp h
    · exact hdigit _ (Nat.mod_lt _ (by omega))
    · exact ih h

theorem unhex_digitChar : ∀ d < 16, unhex (Nat.digitChar d) = some d := by decide

/-- The value of the digits is read back up to a multiple of `16 ^ k`. -/
theorem hexValue_hex (k n acc : Nat) :
    hexValue acc (hex k n) = some (acc * 16 ^ k + n % 16 ^ k) := by
  induction k generalizing acc with
  | zero => simp [hex, hexValue, Nat.mod_one]
  | succ k ih =>
    have hdigit := unhex_digitChar (n / 16 ^ k % 16) (Nat.mod_lt _ (by omega))
    rw [hex, hexValue, hdigit, Option.bind_some, ih, Nat.mod_pow_succ]
    congr 1
    ring

theorem rune_toNat {c : Char} {bound : Nat} (h : c.toNat < bound) :
    rune bound c.toNat = some c := by
  rw [rune, if_pos ⟨h, c.valid⟩, Char.ofNat_toNat]

/-- A hexadecimal escape is read as the character it stands for. -/
theorem unquoteChar_hex {c letter : Char} {k bound : Nat} (t : Text)
    (hletter : hexDigits letter = some (k, bound))
    (hcontrol : (controls.map Prod.swap).lookup letter = none) (hlt : c.toNat < 16 ^ k)
    (hbound : c.toNat < bound) (mark : Char) :
    unquoteChar mark ('\\' :: letter :: (hex k c.toNat ++ t)) = some (c, t) := by
  have hlen := length_hex k c.toNat
  have htake : (hex k c.toNat ++ t).take k = hex k c.toNat := List.take_left' hlen
  have hdrop : (hex k c.toNat ++ t).drop k = t := List.drop_left' hlen
  have hvalue : hexValue 0 (hex k c.toNat) = some c.toNat := by
    rw [hexValue_hex, Nat.zero_mul, Nat.zero_add, Nat.mod_eq_of_lt hlt]
  simp [unquoteChar, hcontrol, hletter, htake, hdrop, hvalue, rune_toNat hbound, hlen]

theorem lookup_swap_controls {c letter : Char} (h : controls.lookup c = some letter) :
    (controls.map Prod.swap).lookup letter = some c := by
  have hall : ∀ p ∈ controls, (controls.map Prod.swap).lookup p.2 = some p.1 := by decide
  obtain ⟨front, back, heq, -⟩ := List.lookup_eq_some_iff.mp h
  apply hall (c, letter)
  rw [heq]
  exact List.mem_append_right _ List.mem_cons_self

variable [Printable]

/-- What is written for a character is read as this character. -/
theorem unquoteChar_escapeRune (c : Char) (t : Text) :
    unquoteChar '"' (escapeRune c ++ t) = some (c, t) := by
  unfold escapeRune
  split
  next h =>
    obtain rfl | rfl := h
    · rfl
    · rfl
  next h =>
    obtain ⟨hquote, hslash⟩ := not_or.mp h
    split
    next => simp [unquoteChar, hquote, hslash]
    next =>
      split
      next letter hletter => simp [unquoteChar, lookup_swap_controls hletter]
      next =>
        split
        next hx =>
          exact unquoteChar_hex t rfl rfl (by omega) (by omega) _
        next =>
          split
          next hu => exact unquoteChar_hex t rfl rfl hu hu _
          next =>
            have hvalid : c.toNat < 0x110000 := by
              have hc : c.toNat.isValidChar := c.valid
              unfold Nat.isValidChar at hc
              omega
            exact unquoteChar_hex t rfl rfl (by omega) hvalid _

/-- A character is escaped by one letter or by digits, or it stands for itself. -/
theorem escapeRune_cases (c : Char) :
    (∃ d, escapeRune c = ['\\', d] ∧ d ≠ '\n') ∨
      (escapeRune c = [c] ∧ c ≠ '"' ∧ c ≠ '\\' ∧ c ≠ '\n') ∨
      ∃ letter k, escapeRune c = '\\' :: letter :: hex k c.toNat ∧ letter ≠ '\n' := by
  unfold escapeRune
  split
  next h =>
    refine .inl ⟨c, rfl, ?_⟩
    rintro rfl
    revert h
    decide
  next h =>
    obtain ⟨hquote, hslash⟩ := not_or.mp h
    split
    next hprint =>
      refine .inr (.inl ⟨rfl, hquote, hslash, ?_⟩)
      rintro rfl
      rw [Printable.control '\n' (by decide)] at hprint
      cases hprint
    next =>
      split
      next letter hletter =>
        refine .inl ⟨letter, rfl, ?_⟩
        rintro rfl
        have hnone : (controls.map Prod.swap).lookup '\n' = none := by decide
        cases hnone.symm.trans (lookup_swap_controls hletter)
      next =>
        right; right
        split
        next => exact ⟨_, _, rfl, by decide⟩
        next => split <;> exact ⟨_, _, rfl, by decide⟩

theorem escapeRune_head (c : Char) : ∃ d s, escapeRune c = d :: s ∧ d ≠ '"' ∧ d ≠ '\n' := by
  obtain ⟨d, h, -⟩ | ⟨h, hquote, -, hline⟩ | ⟨letter, k, h, -⟩ := escapeRune_cases c
  · exact ⟨_, _, h, by decide, by decide⟩
  · exact ⟨_, _, h, hquote, hline⟩
  · exact ⟨_, _, h, by decide, by decide⟩

theorem unquoteRest_escaped (s : Text) {n : Nat} (h : (s.flatMap escapeRune).length < n) :
    unquoteRest '"' n (s.flatMap escapeRune ++ ['"']) = some s := by
  induction s generalizing n with
  | nil =>
    obtain ⟨n, rfl⟩ : ∃ m, n = m + 1 := ⟨n - 1, by omega⟩
    rfl
  | cons c s ih =>
    obtain ⟨n, rfl⟩ : ∃ m, n = m + 1 := ⟨n - 1, by omega⟩
    obtain ⟨d, tail, hescape, hquote, hline⟩ := escapeRune_head c
    have hchar := unquoteChar_escapeRune c (s.flatMap escapeRune ++ ['"'])
    rw [List.flatMap_cons, List.length_append, hescape, List.length_cons] at h
    have hrest : unquoteRest '"' n (s.flatMap escapeRune ++ ['"']) = some s := ih (by omega)
    rw [List.flatMap_cons, List.append_assoc]
    rw [hescape, List.cons_append] at hchar ⊢
    rw [unquoteRest, if_neg hquote, if_neg hline, hchar, Option.bind_some]
    change (unquoteRest '"' n (s.flatMap escapeRune ++ ['"'])).map (c :: ·) = _
    rw [hrest, Option.map_some]

theorem unquote_quote (s : Text) : unquote (quote s) = some s := by
  rw [quote, unquote, if_pos rfl]
  apply unquoteRest_escaped
  rw [List.length_append]
  exact Nat.lt_succ_self _

theorem newline_notMem_quote (s : Text) : '\n' ∉ quote s := by
  have hchar : ∀ c, '\n' ∉ escapeRune c := by
    intro c
    obtain ⟨d, h, hd⟩ | ⟨h, -, -, hline⟩ | ⟨letter, k, h, hletter⟩ := escapeRune_cases c
    · rw [h]
      simp [hd.symm]
    · rw [h]
      simp [hline.symm]
    · rw [h]
      simp only [List.mem_cons, not_or]
      exact ⟨by decide, hletter.symm, fun hmem => (hex_plain hmem).1 rfl⟩
  rw [quote]
  simp [hchar]

end GoLiterals
