import Mathlib.Data.List.Forall2
import Mathlib.Data.List.TakeWhile

/-!
# A fragment of the nft language

A chain is a list of rules, one a line. A rule is a list of matches, a translation and
perhaps a comment:

    rule  = match* ('dnat to' target | 'snat to' target) [comment STRING]
    match = iifname STRING | ip saddr A | ip daddr A | (tcp|udp) dport P
          | ip protocol (tcp|udp)

No STRING has a quote or a newline in it.
-/

namespace NftSyntax

abbrev Text := List Char

/-! ## Tokens -/

inductive Tok where
  | word (w : Text)
  | str (s : Text)
  | newline
  deriving DecidableEq, Repr

def isStringChar (c : Char) : Bool := c != '"' && c != '\n'

def isWordChar (c : Char) : Bool := c != ' ' && isStringChar c

theorem length_dropWhile_le (p : Char → Bool) (t : Text) : (t.dropWhile p).length ≤ t.length :=
  (List.dropWhile_sublist p).length_le

def lex : Text → Option (List Tok)
  | [] => some []
  | c :: t =>
    if c = ' ' then lex t
    else if c = '\n' then (lex t).map (.newline :: ·)
    else if c = '"' then
      if (t.dropWhile isStringChar).head? = some '"' then
        (lex (t.dropWhile isStringChar).tail).map (.str (t.takeWhile isStringChar) :: ·)
      else none
    else (lex (t.dropWhile isWordChar)).map (.word (c :: t.takeWhile isWordChar) :: ·)
termination_by t => t.length
decreasing_by
  · simp
  · simp
  · have h := length_dropWhile_le isStringChar t
    simp only [List.length_tail, List.length_cons]
    omega
  · have h := length_dropWhile_le isWordChar t
    simp only [List.length_cons]
    omega

@[simp] theorem lex_nil : lex [] = some [] := by rw [lex]

@[simp] theorem lex_space (t : Text) : lex (' ' :: t) = lex t := by rw [lex, if_pos rfl]

@[simp] theorem lex_newline (t : Text) : lex ('\n' :: t) = (lex t).map (.newline :: ·) := by
  rw [lex, if_neg (by decide), if_pos rfl]

/-- A text that is one word. -/
def IsWord (w : Text) : Prop := w ≠ [] ∧ ∀ c ∈ w, isWordChar c = true

instance (w : Text) : Decidable (IsWord w) :=
  @instDecidableAnd _ _ inferInstance (List.decidableBAll _ w)

/-- What follows ends the word before it. -/
def EndsWord (t : Text) : Prop := ∀ c ∈ t.head?, isWordChar c = false

theorem takeWhile_append {p : Char → Bool} {w t : Text} (hw : ∀ c ∈ w, p c = true)
    (ht : ∀ c ∈ t.head?, p c = false) :
    (w ++ t).takeWhile p = w ∧ (w ++ t).dropWhile p = t := by
  rw [List.takeWhile_append_of_pos hw, List.dropWhile_append_of_pos hw]
  cases t with
  | nil => simp
  | cons c t => simp [ht c rfl]

/-- A word ends where the next character is none of a word. -/
theorem lex_word {w t : Text} (hw : IsWord w) (ht : EndsWord t) :
    lex (w ++ t) = (lex t).map (.word w :: ·) := by
  obtain ⟨hne, hall⟩ := hw
  cases w with
  | nil => exact absurd rfl hne
  | cons c w =>
    have hc := hall c List.mem_cons_self
    obtain ⟨htake, hdrop⟩ := takeWhile_append (fun d hd => hall d (List.mem_cons_of_mem c hd)) ht
    simp only [isWordChar, isStringChar, Bool.and_eq_true, bne_iff_ne] at hc
    rw [List.cons_append, lex, if_neg hc.1, if_neg hc.2.2, if_neg hc.2.1, htake, hdrop]

/-- A quoted text without a quote in it is one token. -/
theorem lex_str {s : Text} (hs : ∀ c ∈ s, isStringChar c = true) (t : Text) :
    lex ('"' :: (s ++ '"' :: t)) = (lex t).map (.str s :: ·) := by
  have hquote : ∀ c ∈ ('"' :: t).head?, isStringChar c = false := by
    rintro c ⟨⟩
    rfl
  obtain ⟨htake, hdrop⟩ := takeWhile_append hs hquote
  rw [lex, if_neg (by decide), if_neg (by decide), if_pos rfl, hdrop, htake, List.head?_cons,
    if_pos rfl, List.tail_cons]

/-- The text gives the tokens, whatever follows that ends a word. -/
def LexesTo (p : Text) (ks : List Tok) : Prop :=
  ∀ t, EndsWord t → lex (p ++ t) = (lex t).map (ks ++ ·)

theorem lexesTo_word {w : Text} (hw : IsWord w) : LexesTo w [.word w] := fun _ ht => lex_word hw ht

theorem lexesTo_quoted {s : Text} (hs : ∀ c ∈ s, isStringChar c = true) :
    LexesTo ('"' :: (s ++ ['"'])) [.str s] := by
  intro t _
  rw [List.cons_append, List.append_assoc]
  exact lex_str hs t

theorem endsWord_space (t : Text) : EndsWord (' ' :: t) := by
  rintro c ⟨⟩
  rfl

theorem endsWord_newline (t : Text) : EndsWord ('\n' :: t) := by
  rintro c ⟨⟩
  rfl

theorem LexesTo.space {p : Text} {ks : List Tok} (h : LexesTo p ks) (t : Text) :
    lex (p ++ ' ' :: t) = (lex t).map (ks ++ ·) := by
  rw [h _ (endsWord_space t), lex_space]

theorem LexesTo.newline {p : Text} {ks : List Tok} (h : LexesTo p ks) (t : Text) :
    lex (p ++ '\n' :: t) = (lex t).map (ks ++ .newline :: ·) := by
  rw [h _ (endsWord_newline t), lex_newline, Option.map_map]
  rfl

theorem LexesTo.append {p q : Text} {ks ls : List Tok} (hp : LexesTo p ks) (hq : LexesTo q ls) :
    LexesTo (p ++ ' ' :: q) (ks ++ ls) := by
  intro t ht
  rw [List.append_assoc, List.cons_append, hp.space, hq t ht, Option.map_map]
  congr 1
  funext toks
  rw [Function.comp_apply, List.append_assoc]

/-- A word and what follows it. -/
theorem LexesTo.cons {w q : Text} {ls : List Tok} (hw : IsWord w) (hq : LexesTo q ls) :
    LexesTo (w ++ ' ' :: q) (.word w :: ls) := (lexesTo_word hw).append hq

theorem LexesTo.indent {p : Text} {ks : List Tok} (h : LexesTo p ks) : LexesTo (' ' :: p) ks := by
  intro t ht
  rw [List.cons_append, lex_space, h t ht]

/-- Parts with a space behind each of them. -/
theorem lex_parts {ps : List Text} {kss : List (List Tok)} (h : List.Forall₂ LexesTo ps kss)
    (t : Text) : lex (ps.flatMap (· ++ [' ']) ++ t) = (lex t).map (kss.flatten ++ ·) := by
  induction h with
  | nil => simp
  | cons hp _ ih =>
    rw [List.flatMap_cons, List.append_assoc, List.append_assoc, List.singleton_append, hp.space,
      ih, Option.map_map]
    congr 1
    funext toks
    simp

/-! ## Rules -/

inductive Proto where
  | tcp
  | udp
  deriving DecidableEq, Repr

inductive Match where
  | iifname (name : Text)
  | saddr (addr : Text)
  | daddr (addr : Text)
  | dport (proto : Proto) (port : Text)
  | protocol (proto : Proto)
  deriving DecidableEq, Repr

inductive NatKind where
  | dnat
  | snat
  deriving DecidableEq, Repr

structure Target where
  addr : Text
  port : Option Text
  deriving DecidableEq, Repr

structure Rule where
  tests : List Match
  kind : NatKind
  target : Target
  comment : Option Text
  deriving DecidableEq, Repr

def isDigit (c : Char) : Bool := '0' ≤ c && c ≤ '9'

/-- The characters of addresses and of their prefix lengths. -/
def IsAddress (w : Text) : Prop := w ≠ [] ∧ ∀ c ∈ w, isDigit c = true ∨ c = '.' ∨ c = '/'

/-- A port or a range of ports. -/
def IsPort (w : Text) : Prop := w ≠ [] ∧ ∀ c ∈ w, isDigit c = true ∨ c = '-'

instance (w : Text) : Decidable (IsAddress w) :=
  @instDecidableAnd _ _ inferInstance (List.decidableBAll _ w)

instance (w : Text) : Decidable (IsPort w) :=
  @instDecidableAnd _ _ inferInstance (List.decidableBAll _ w)

def protoOf (w : Text) : Option Proto :=
  if w = "tcp".toList then some .tcp
  else if w = "udp".toList then some .udp
  else none

def kindOf (w : Text) : Option NatKind :=
  if w = "dnat".toList then some .dnat
  else if w = "snat".toList then some .snat
  else none

/-- An address, perhaps with a colon and a port. -/
def targetOf (w : Text) : Option Target :=
  if IsAddress (w.takeWhile (· ≠ ':')) then
    match w.dropWhile (· ≠ ':') with
    | [] => some ⟨w.takeWhile (· ≠ ':'), none⟩
    | _ :: port => if IsPort port then some ⟨w.takeWhile (· ≠ ':'), some port⟩ else none
  else none

/-- What may follow the target. -/
def parseComment : List Tok → Option (Option Text)
  | [] => some none
  | [.word w, .str s] => if w = "comment".toList then some (some s) else none
  | _ => none

def Rule.add (m : Match) (r : Rule) : Rule := { r with tests := m :: r.tests }

def parseRule : List Tok → Option Rule
  | .word w :: .str s :: rest =>
    if w = "iifname".toList then (parseRule rest).map (.add (.iifname s)) else none
  | .word w :: .word x :: .word y :: rest =>
    if w = "ip".toList ∧ x = "saddr".toList ∧ IsAddress y then
      (parseRule rest).map (.add (.saddr y))
    else if w = "ip".toList ∧ x = "daddr".toList ∧ IsAddress y then
      (parseRule rest).map (.add (.daddr y))
    else if w = "ip".toList ∧ x = "protocol".toList then
      (protoOf y).bind fun proto => (parseRule rest).map (.add (.protocol proto))
    else if x = "dport".toList ∧ IsPort y then
      (protoOf w).bind fun proto => (parseRule rest).map (.add (.dport proto y))
    else if x = "to".toList then
      (kindOf w).bind fun kind => (targetOf y).bind fun target =>
        (parseComment rest).map fun comment => ⟨[], kind, target, comment⟩
    else none
  | _ => none

/-- The rules of a chain, up to the brace that closes it. -/
def parseRules : List (List Tok) → Option (List Rule)
  | [] => none
  | line :: lines =>
    if line = [.word ['\x7d']] then if lines = [[]] then some [] else none
    else (parseRule line).bind fun r => (parseRules lines).map (r :: ·)

/-- A chain with the given two lines at its beginning. -/
def parseChain (header spec : List Tok) (text : Text) : Option (List Rule) :=
  (lex text).bind fun toks =>
    match toks.splitOn .newline with
    | first :: second :: lines =>
      if first = header ∧ second = spec then parseRules lines else none
    | _ => none

/-- The rules in a text that begins inside a chain. -/
def parseTail (text : Text) : Option (List Rule) :=
  (lex text).bind fun toks => parseRules (toks.splitOn .newline)

/-- Tokens that do not split stay with the first part. -/
theorem splitOn_append {a : Tok} {ks : List Tok} (h : a ∉ ks) (toks : List Tok) :
    (ks ++ toks).splitOn a = (toks.splitOn a).modifyHead (ks ++ ·) := by
  induction ks with
  | nil =>
    rw [List.nil_append]
    cases toks.splitOn a with
    | nil => rfl
    | cons line lines => rfl
  | cons k ks ih =>
    rw [List.mem_cons, not_or] at h
    rw [List.cons_append, List.splitOn_cons_eq_if_modifyHead, if_neg (by simp [Ne.symm h.1]),
      ih h.2]
    cases toks.splitOn a with
    | nil => rfl
    | cons line lines => rfl

/-- A line that is a rule. -/
theorem parseTail_rule {p : Text} {ks : List Tok} {r : Rule} (hlex : LexesTo p ks)
    (hline : .newline ∉ ks) (hrule : parseRule ks = some r) (t : Text) :
    parseTail (p ++ '\n' :: t) = (parseTail t).map (r :: ·) := by
  have hbrace : ks ≠ [.word ['\x7d']] := by
    rintro rfl
    cases hrule
  rw [parseTail, hlex.newline, Option.bind_map, parseTail, Option.map_bind]
  congr 1
  funext toks
  rw [Function.comp_apply, List.splitOn_append_cons_self_of_not_mem hline, parseRules,
    if_neg hbrace, hrule]
  rfl

/-- A line that begins with what no rule begins with. -/
theorem parseTail_eq_none {p : Text} {ks : List Tok} {k : Tok}
    (hlex : ∀ t, lex (p ++ t) = (lex t).map (ks ++ ·)) (hline : .newline ∉ ks) (hk : k ∈ ks)
    (hbrace : k ≠ .word ['\x7d']) (hrule : ∀ rest, parseRule (ks ++ rest) = none) (t : Text) :
    parseTail (p ++ t) = none := by
  rw [parseTail, hlex, Option.bind_map, Option.bind_eq_none_iff]
  intro toks _
  rw [Function.comp_apply, splitOn_append hline]
  cases hsplit : toks.splitOn .newline with
  | nil => exact absurd hsplit (List.splitOn_ne_nil _ _)
  | cons line lines =>
    have hne : ks ++ line ≠ [.word ['\x7d']] := by
      intro heq
      have hmem := List.mem_append_left line hk
      rw [heq, List.mem_singleton] at hmem
      exact hbrace hmem
    rw [List.modifyHead_cons, parseRules, if_neg hne, hrule]
    rfl

/-- The header and the line of the chain are taken off, whatever follows. -/
theorem parseChain_eq {header spec : List Tok} {p q : Text} (hp : LexesTo p header)
    (hq : LexesTo q spec) (hheader : .newline ∉ header) (hspec : .newline ∉ spec) (t : Text) :
    parseChain header spec (p ++ '\n' :: (q ++ '\n' :: t)) = parseTail t := by
  rw [parseChain, hp.newline, hq.newline, Option.map_map, Option.bind_map, parseTail]
  congr 1
  funext toks
  simp only [Function.comp_apply]
  rw [List.splitOn_append_cons_self_of_not_mem hheader,
    List.splitOn_append_cons_self_of_not_mem hspec]
  exact if_pos ⟨rfl, rfl⟩

/-! ## What a rule means -/

/-- What a rule asks of a packet and what it makes of it. -/
structure Meaning where
  iifname : List Text
  saddr : List Text
  daddr : List Text
  protocol : List Proto
  dport : List Text
  kind : NatKind
  target : Target
  deriving DecidableEq, Repr

/-- A match of a port is also one of the protocol. -/
def Meaning.add (m : Match) (r : Meaning) : Meaning :=
  match m with
  | .iifname name => { r with iifname := name :: r.iifname }
  | .saddr addr => { r with saddr := addr :: r.saddr }
  | .daddr addr => { r with daddr := addr :: r.daddr }
  | .dport proto port => { r with protocol := proto :: r.protocol, dport := port :: r.dport }
  | .protocol proto => { r with protocol := proto :: r.protocol }

def Rule.meaning (r : Rule) : Meaning :=
  r.tests.foldr Meaning.add ⟨[], [], [], [], [], r.kind, r.target⟩

end NftSyntax
