import Mathlib.Data.List.Basic

/-!
# Recursive descent over a list of tokens

A parser reads tokens from a list and answers with a value and the tokens left, or with an error.
Its loops and its recursion run on a bound taken from the number of tokens left; `exhausted` is the
answer of a loop that reaches its bound.
-/

namespace RecursiveDescent

inductive Reply (τ ε α : Type) where
  | ok (value : α) (rest : List τ)
  | error (e : ε)
  | exhausted
  deriving DecidableEq

variable {τ ε α β : Type}

namespace Reply

def bind : Reply τ ε α → (α → List τ → Reply τ ε β) → Reply τ ε β
  | .ok a rest, f => f a rest
  | .error e, _ => .error e
  | .exhausted, _ => .exhausted

@[simp] theorem ok_bind (a : α) (rest : List τ) (f : α → List τ → Reply τ ε β) :
    (ok a rest).bind f = f a rest := rfl

@[simp] theorem error_bind (e : ε) (f : α → List τ → Reply τ ε β) :
    (error e : Reply τ ε α).bind f = .error e := rfl

@[simp] theorem exhausted_bind (f : α → List τ → Reply τ ε β) :
    (exhausted : Reply τ ε α).bind f = .exhausted := rfl

theorem bind_eq_ok {r : Reply τ ε α} {f : α → List τ → Reply τ ε β} {b : β} {rest : List τ}
    (h : r.bind f = .ok b rest) : ∃ a mid, r = .ok a mid ∧ f a mid = .ok b rest := by
  cases r with
  | ok a mid => exact ⟨a, mid, rfl, h⟩
  | error e => cases h
  | exhausted => cases h

def mapError (f : ε → ε) : Reply τ ε α → Reply τ ε α
  | .error e => .error (f e)
  | r => r

@[simp] theorem mapError_ok (f : ε → ε) (a : α) (rest : List τ) :
    (ok a rest : Reply τ ε α).mapError f = .ok a rest := rfl

theorem mapError_eq_ok {f : ε → ε} {r : Reply τ ε α} {a : α} {rest : List τ}
    (h : r.mapError f = .ok a rest) : r = .ok a rest := by
  cases r with
  | ok b mid => exact h
  | error e => cases h
  | exhausted => cases h

end Reply

def Parser (τ ε α : Type) : Type := List τ → Reply τ ε α

instance : Monad (Parser τ ε) where
  pure a := fun ts => .ok a ts
  bind p f := fun ts => (p ts).bind fun a rest => f a rest

/-- What a whole parse gives: a value or an error, and nothing when it was exhausted. -/
def Reply.result : Reply τ ε α → Option (Except ε α)
  | .ok a _ => some (.ok a)
  | .error e => some (.error e)
  | .exhausted => none

/-- A result is a reply with the tokens behind it. -/
theorem Reply.result_eq_ok {r : Reply τ ε α} {a : α} (h : r.result = some (.ok a)) :
    ∃ rest, r = .ok a rest := by
  cases r with
  | ok b rest =>
    cases h
    exact ⟨rest, rfl⟩
  | error e => cases h
  | exhausted => cases h

@[simp] theorem pure_apply (a : α) (ts : List τ) : (pure a : Parser τ ε α) ts = .ok a ts := rfl

@[simp] theorem bind_apply (p : Parser τ ε α) (f : α → Parser τ ε β) (ts : List τ) :
    (p >>= f) ts = (p ts).bind fun a rest => f a rest := rfl

@[simp] theorem map_apply (f : α → β) (p : Parser τ ε α) (ts : List τ) :
    (f <$> p) ts = (p ts).bind fun a rest => .ok (f a) rest := rfl

@[simp] theorem ite_apply {c : Prop} [Decidable c] (p q : Parser τ ε α) (ts : List τ) :
    (if c then p else q) ts = if c then p ts else q ts := by
  split <;> rfl

def fail (e : ε) : Parser τ ε α := fun _ => .error e

/-- A part whose errors are wrapped. -/
def withError (f : ε → ε) (p : Parser τ ε α) : Parser τ ε α := fun ts => (p ts).mapError f

@[simp] theorem withError_apply (f : ε → ε) (p : Parser τ ε α) (ts : List τ) :
    withError f p ts = (p ts).mapError f := rfl

section Combinators

variable [Inhabited τ]

/-- The next token; past the last one it is the default token. -/
def head (ts : List τ) : τ := ts.headD default

@[simp] theorem head_cons (t : τ) (ts : List τ) : head (t :: ts) = t := rfl

@[simp] theorem head_nil : head ([] : List τ) = default := rfl

def peek : Parser τ ε τ := fun ts => .ok (head ts) ts

@[simp] theorem peek_apply (ts : List τ) : (peek : Parser τ ε τ) ts = .ok (head ts) ts := rfl

def advance : Parser τ ε τ := fun ts => .ok (head ts) ts.tail

@[simp] theorem advance_apply (ts : List τ) :
    (advance : Parser τ ε τ) ts = .ok (head ts) ts.tail := rfl

/-- Advances over the next token when it passes the test; tells whether it did. -/
def accept (test : τ → Bool) : Parser τ ε Bool := fun ts =>
  if test (head ts) then .ok true ts.tail else .ok false ts

@[simp] theorem accept_apply (test : τ → Bool) (ts : List τ) :
    (accept test : Parser τ ε Bool) ts = if test (head ts) then .ok true ts.tail else .ok false ts :=
  rfl

/-- The least fixed point of a parser that calls itself, unrolled a number of times. -/
def unroll (f : Parser τ ε α → Parser τ ε α) : Nat → Parser τ ε α
  | 0 => fun _ => .exhausted
  | n + 1 => f (unroll f n)

def recursive (f : Parser τ ε α → Parser τ ε α) : Parser τ ε α := fun ts =>
  unroll f (ts.length + 1) ts

/-- `for go(peek) { item }`, collecting the items that are there. -/
def manyFrom (go : τ → Bool) (item : Parser τ ε (Option α)) : Nat → Parser τ ε (List α)
  | 0 => fun _ => .exhausted
  | n + 1 => fun ts =>
    if go (head ts) then
      (item ts).bind fun a mid => (manyFrom go item n mid).bind fun as rest =>
        .ok (a.toList ++ as) rest
    else .ok [] ts

def many (go : τ → Bool) (item : Parser τ ε (Option α)) : Parser τ ε (List α) := fun ts =>
  manyFrom go item (ts.length + 1) ts

/-- `for !stop(peek) { item; if !match(comma) break }`. -/
def separatedFrom (stop comma : τ → Bool) (item : Parser τ ε α) : Nat → Parser τ ε (List α)
  | 0 => fun _ => .exhausted
  | n + 1 => fun ts =>
    if stop (head ts) then .ok [] ts
    else (item ts).bind fun a mid =>
      if comma (head mid) then
        (separatedFrom stop comma item n mid.tail).bind fun as rest => .ok (a :: as) rest
      else .ok [a] mid

def separated (stop comma : τ → Bool) (item : Parser τ ε α) : Parser τ ε (List α) := fun ts =>
  separatedFrom stop comma item (ts.length + 1) ts

/-- `for op(peek) { advance; right := operand; left = join(left, op, right) }`. -/
def chainFrom (op : τ → Option β) (operand : Parser τ ε α) (join : α → β → α → α) :
    Nat → α → Parser τ ε α
  | 0, _ => fun _ => .exhausted
  | n + 1, left => fun ts =>
    match op (head ts) with
    | none => .ok left ts
    | some b => (operand ts.tail).bind fun right rest =>
        chainFrom op operand join n (join left b right) rest

/-- One level of left-associative binary operators. -/
def chain (op : τ → Option β) (operand : Parser τ ε α) (join : α → β → α → α) : Parser τ ε α :=
  fun ts => (operand ts).bind fun left rest =>
    chainFrom op operand join (rest.length + 1) left rest

/-- Levels of binary operators over one another, the one that binds tightest first. -/
def levels (ops : List (τ → Option β)) (operand : Parser τ ε α) (join : α → β → α → α) :
    Parser τ ε α :=
  ops.foldl (fun p op => chain op p join) operand

end Combinators

section Reading

variable [Inhabited τ]

/-- More fuel does not change what a loop returns. -/
theorem manyFrom_mono {go : τ → Bool} {item : Parser τ ε (Option α)} {n m : Nat} (h : n ≤ m)
    {ts : List τ} (hne : manyFrom go item n ts ≠ .exhausted) :
    manyFrom go item m ts = manyFrom go item n ts := by
  induction n generalizing m ts with
  | zero => exact absurd rfl hne
  | succ n ih =>
    cases m with
    | zero => omega
    | succ m =>
      unfold manyFrom at hne ⊢
      cases hgo : go (head ts) with
      | false => simp
      | true =>
        simp only [hgo, if_true] at hne ⊢
        cases hitem : item ts with
        | error e => rfl
        | exhausted => rfl
        | ok a mid =>
          have hmid : manyFrom go item n mid ≠ .exhausted := by
            intro hmid
            simp [hitem, hmid] at hne
          simp only [Reply.ok_bind, ih (by omega : n ≤ m) hmid]

theorem many_stop {go : τ → Bool} {item : Parser τ ε (Option α)} {ts : List τ}
    (h : go (head ts) = false) : many go item ts = .ok [] ts := by
  simp [many, manyFrom, h]

theorem many_step {go : τ → Bool} {item : Parser τ ε (Option α)} {ts mid : List τ}
    {a : Option α} (hgo : go (head ts) = true) (hitem : item ts = .ok a mid)
    (hlt : mid.length < ts.length) (hne : many go item mid ≠ .exhausted) :
    many go item ts = (many go item mid).bind fun as rest => .ok (a.toList ++ as) rest := by
  have hmid : manyFrom go item ts.length mid = many go item mid := manyFrom_mono (by omega) hne
  rw [many, manyFrom]
  simp only [hgo, if_true, hitem, Reply.ok_bind, hmid]

theorem many_next {go : τ → Bool} {item : Parser τ ε (Option α)} {ts mid rest : List τ}
    {a : Option α} {as : List α} (hgo : go (head ts) = true) (hitem : item ts = .ok a mid)
    (hlt : mid.length < ts.length) (hmany : many go item mid = .ok as rest) :
    many go item ts = .ok (a.toList ++ as) rest := by
  rw [many_step hgo hitem hlt (by simp [hmany]), hmany, Reply.ok_bind]

theorem many_error {go : τ → Bool} {item : Parser τ ε (Option α)} {ts : List τ} {e : ε}
    (hgo : go (head ts) = true) (hitem : item ts = .error e) : many go item ts = .error e := by
  simp [many, manyFrom, hgo, hitem]

/-- More fuel does not change what a list with separators returns. -/
theorem separatedFrom_mono {stop comma : τ → Bool} {item : Parser τ ε α} {n m : Nat} (h : n ≤ m)
    {ts : List τ} (hne : separatedFrom stop comma item n ts ≠ .exhausted) :
    separatedFrom stop comma item m ts = separatedFrom stop comma item n ts := by
  induction n generalizing m ts with
  | zero => exact absurd rfl hne
  | succ n ih =>
    cases m with
    | zero => omega
    | succ m =>
      unfold separatedFrom at hne ⊢
      cases hstop : stop (head ts) with
      | true => simp
      | false =>
        simp only [hstop, Bool.false_eq_true, if_false] at hne ⊢
        cases hitem : item ts with
        | error e => rfl
        | exhausted => rfl
        | ok a mid =>
          simp only [hitem, Reply.ok_bind] at hne ⊢
          cases hcomma : comma (head mid) with
          | false => simp
          | true =>
            have hmid : separatedFrom stop comma item n mid.tail ≠ .exhausted := by
              intro hmid
              simp [hcomma, hmid] at hne
            simp only [if_true, ih (by omega : n ≤ m) hmid]

theorem separated_stop {stop comma : τ → Bool} {item : Parser τ ε α} {ts : List τ}
    (h : stop (head ts) = true) : separated stop comma item ts = .ok [] ts := by
  simp [separated, separatedFrom, h]

theorem separated_last {stop comma : τ → Bool} {item : Parser τ ε α} {ts rest : List τ} {a : α}
    (hstop : stop (head ts) = false) (hitem : item ts = .ok a rest)
    (hcomma : comma (head rest) = false) : separated stop comma item ts = .ok [a] rest := by
  simp [separated, separatedFrom, hstop, hitem, hcomma]

/-- An item with a comma behind it is the first one of the list. -/
theorem separated_step {stop comma : τ → Bool} {item : Parser τ ε α} {ts mid : List τ} {c : τ}
    {a : α} (hstop : stop (head ts) = false) (hitem : item ts = .ok a (c :: mid))
    (hcomma : comma c = true) (hlt : mid.length < ts.length)
    (hne : separated stop comma item mid ≠ .exhausted) :
    separated stop comma item ts =
      (separated stop comma item mid).bind fun as rest => .ok (a :: as) rest := by
  have hmid : separatedFrom stop comma item ts.length mid = separated stop comma item mid :=
    separatedFrom_mono (by omega) hne
  rw [separated, separatedFrom]
  simp only [hstop, Bool.false_eq_true, if_false, hitem, Reply.ok_bind, head_cons, hcomma, if_true,
    List.tail_cons, hmid]

theorem separated_next {stop comma : τ → Bool} {item : Parser τ ε α} {ts mid rest : List τ}
    {c : τ} {a : α} {as : List α} (hstop : stop (head ts) = false)
    (hitem : item ts = .ok a (c :: mid)) (hcomma : comma c = true) (hlt : mid.length < ts.length)
    (hmore : separated stop comma item mid = .ok as rest) :
    separated stop comma item ts = .ok (a :: as) rest := by
  rw [separated_step hstop hitem hcomma hlt (by simp [hmore]), hmore, Reply.ok_bind]

/-- Any number of items, each with a comma behind it. -/
theorem separated_terminated {stop comma : τ → Bool} {item : Parser τ ε α} {c : τ} {rest : List τ}
    (hcomma : comma c = true) (hend : stop (head rest) = true) {items : List (List τ × α)}
    (hstop : ∀ p ∈ items, ∀ tail, stop (head (p.1 ++ tail)) = false)
    (h : ∀ p ∈ items, ∀ tail, item (p.1 ++ tail) = .ok p.2 tail) :
    separated stop comma item (items.flatMap (fun p => p.1 ++ [c]) ++ rest) =
      .ok (items.map (·.2)) rest := by
  induction items with
  | nil => exact separated_stop hend
  | cons p items ih =>
    have hmore := ih (fun q hq => hstop q (List.mem_cons_of_mem p hq))
      (fun q hq => h q (List.mem_cons_of_mem p hq))
    rw [List.flatMap_cons, List.append_assoc, List.append_assoc, List.singleton_append]
    apply separated_next (hstop p List.mem_cons_self _) (h p List.mem_cons_self _) hcomma _ hmore
    simp only [List.length_append, List.length_cons]
    omega

theorem separated_error {stop comma : τ → Bool} {item : Parser τ ε α} {ts : List τ} {e : ε}
    (hstop : stop (head ts) = false) (hitem : item ts = .error e) :
    separated stop comma item ts = .error e := by
  simp [separated, separatedFrom, hstop, hitem]

theorem chain_single {op : τ → Option β} {operand : Parser τ ε α} {join : α → β → α → α}
    {ts rest : List τ} {a : α} (hread : operand ts = .ok a rest) (hop : op (head rest) = none) :
    chain op operand join ts = .ok a rest := by
  simp [chain, chainFrom, hread, hop]

theorem chain_pair {op : τ → Option β} {operand : Parser τ ε α} {join : α → β → α → α}
    {ts mid rest : List τ} {t : τ} {a c : α} {b : β} (hleft : operand ts = .ok a (t :: mid))
    (hop : op t = some b) (hright : operand mid = .ok c rest) (hend : op (head rest) = none) :
    chain op operand join ts = .ok (join a b c) rest := by
  simp [chain, chainFrom, hleft, hop, hright, hend]

theorem chain_error {op : τ → Option β} {operand : Parser τ ε α} {join : α → β → α → α}
    {ts : List τ} {e : ε} (h : operand ts = .error e) : chain op operand join ts = .error e := by
  simp [chain, h]

/-- Operands with one operator in front of each begin with it, unless there are none. -/
theorem head_sequence {γ : Type} (t : τ) (tokens : γ → List τ) (items : List γ)
    (rest : List τ) :
    head (items.flatMap (fun p => t :: tokens p) ++ rest) = t ∨
      items.flatMap (fun p => t :: tokens p) ++ rest = rest := by
  cases items with
  | nil => exact .inr rfl
  | cons q items => exact .inl rfl

omit [Inhabited τ] in
theorem length_lt_sequence {γ : Type} (t : τ) (tokens : γ → List τ) (items : List γ)
    (rest : List τ) :
    items.length < (items.flatMap (fun p => t :: tokens p) ++ rest).length + 1 := by
  induction items with
  | nil => simp only [List.length_nil]; omega
  | cons q items ih =>
    simp only [List.flatMap_cons, List.cons_append, List.append_assoc, List.length_cons,
      List.length_append] at ih ⊢
    omega

/-- Any number of operands with one operator between them. -/
theorem chainFrom_sequence {op : τ → Option β} {operand : Parser τ ε α} {join : α → β → α → α}
    {t : τ} {b : β} (hop : op t = some b) {rest : List τ} (hend : op (head rest) = none)
    {items : List (List τ × α)}
    (h : ∀ p ∈ items, ∀ tail, head tail = t ∨ tail = rest → operand (p.1 ++ tail) = .ok p.2 tail)
    {n : Nat} (hn : items.length < n) (left : α) :
    chainFrom op operand join n left (items.flatMap (fun p => t :: p.1) ++ rest) =
      .ok (items.foldl (fun l p => join l b p.2) left) rest := by
  induction items generalizing n left with
  | nil =>
    obtain ⟨m, rfl⟩ : ∃ m, n = m + 1 := ⟨n - 1, by simp only [List.length_nil] at hn; omega⟩
    simp [chainFrom, hend]
  | cons p items ih =>
    simp only [List.length_cons] at hn
    obtain ⟨m, rfl⟩ : ∃ m, n = m + 1 := ⟨n - 1, by omega⟩
    have htail := head_sequence t Prod.fst items rest
    have hread := h p List.mem_cons_self _ htail
    have hmore := ih (fun q hq => h q (List.mem_cons_of_mem p hq)) (n := m) (by omega)
      (join left b p.2)
    simp only [List.flatMap_cons, List.cons_append, List.append_assoc, chainFrom, head_cons, hop,
      List.tail_cons, hread, Reply.ok_bind, hmore, List.foldl_cons]

/-- Operands with one operator between them are joined from the left. -/
theorem chain_sequence {op : τ → Option β} {operand : Parser τ ε α} {join : α → β → α → α}
    {t : τ} {b : β} (hop : op t = some b) {rest : List τ} (hend : op (head rest) = none)
    {first : List τ × α} {items : List (List τ × α)}
    (h : ∀ p ∈ first :: items, ∀ tail, head tail = t ∨ tail = rest →
      operand (p.1 ++ tail) = .ok p.2 tail) :
    chain op operand join (first.1 ++ (items.flatMap (fun p => t :: p.1) ++ rest)) =
      .ok (items.foldl (fun l p => join l b p.2) first.2) rest := by
  have hfirst := h first List.mem_cons_self _ (head_sequence t Prod.fst items rest)
  have hlength := length_lt_sequence t Prod.fst items rest
  rw [chain, hfirst, Reply.ok_bind]
  exact chainFrom_sequence hop hend (fun q hq => h q (List.mem_cons_of_mem first hq))
    hlength first.2

/-- If one of the operands cannot be read, neither can the sequence. -/
theorem chainFrom_sequence_error {op : τ → Option β} {operand : Parser τ ε α}
    {join : α → β → α → α} {t : τ} {b : β} (hop : op t = some b) {rest : List τ} {e : ε}
    {items : List (List τ)}
    (h : ∀ p ∈ items, ∀ tail, head tail = t ∨ tail = rest →
      (∃ a, operand (p ++ tail) = .ok a tail) ∨ operand (p ++ tail) = .error e)
    (hbad : ∃ p ∈ items, ∀ tail, head tail = t ∨ tail = rest → operand (p ++ tail) = .error e)
    {n : Nat} (hn : items.length < n) (left : α) :
    chainFrom op operand join n left (items.flatMap (fun p => t :: p) ++ rest) = .error e := by
  induction items generalizing n left with
  | nil =>
    obtain ⟨p, hp, -⟩ := hbad
    cases hp
  | cons q items ih =>
    obtain ⟨n, rfl⟩ : ∃ m, n = m + 1 := ⟨n - 1, by simp only [List.length_cons] at hn; omega⟩
    have htail := head_sequence t (fun p => p) items rest
    simp only [List.flatMap_cons, List.cons_append, List.append_assoc, chainFrom, head_cons, hop,
      List.tail_cons]
    obtain ⟨a, hread⟩ | herror := h q List.mem_cons_self _ htail
    · -- the operand that cannot be read comes later
      have hlater : ∃ p ∈ items, ∀ tail, head tail = t ∨ tail = rest →
          operand (p ++ tail) = .error e := by
        obtain ⟨p, hp, herror⟩ := hbad
        obtain rfl | hp := List.mem_cons.mp hp
        · rw [herror _ htail] at hread
          cases hread
        · exact ⟨p, hp, herror⟩
      rw [hread, Reply.ok_bind]
      exact ih (fun p hp => h p (List.mem_cons_of_mem q hp)) hlater
        (by simp only [List.length_cons] at hn; omega) _
    · rw [herror, Reply.error_bind]

/-- One operand that cannot be read makes the whole sequence an error. -/
theorem chain_sequence_error {op : τ → Option β} {operand : Parser τ ε α}
    {join : α → β → α → α} {t : τ} {b : β} (hop : op t = some b) {rest : List τ} {e : ε}
    {first : List τ} {items : List (List τ)}
    (h : ∀ p ∈ first :: items, ∀ tail, head tail = t ∨ tail = rest →
      (∃ a, operand (p ++ tail) = .ok a tail) ∨ operand (p ++ tail) = .error e)
    (hbad : ∃ p ∈ first :: items, ∀ tail, head tail = t ∨ tail = rest →
      operand (p ++ tail) = .error e) :
    chain op operand join (first ++ (items.flatMap (fun p => t :: p) ++ rest)) = .error e := by
  have htail := head_sequence t (fun p => p) items rest
  have hlength := length_lt_sequence t (fun p => p) items rest
  obtain ⟨a, hread⟩ | herror := h first List.mem_cons_self _ htail
  · obtain ⟨p, hp, herror⟩ := hbad
    obtain rfl | hp := List.mem_cons.mp hp
    · rw [herror _ htail] at hread
      cases hread
    · rw [chain, hread, Reply.ok_bind]
      exact chainFrom_sequence_error hop (fun q hq => h q (List.mem_cons_of_mem first hq))
        ⟨p, hp, herror⟩ hlength a
  · exact chain_error herror

/-- An operand with no operator behind it goes through all levels. -/
theorem levels_single {ops : List (τ → Option β)} {operand : Parser τ ε α}
    {join : α → β → α → α} {ts rest : List τ} {a : α} (hread : operand ts = .ok a rest)
    (hops : ∀ op ∈ ops, op (head rest) = none) : levels ops operand join ts = .ok a rest := by
  induction ops generalizing operand with
  | nil => exact hread
  | cons op ops ih =>
    exact ih (chain_single hread (hops op List.mem_cons_self))
      fun op' hop' => hops op' (List.mem_cons_of_mem op hop')

/-- Two operands are joined in the level of their operator. -/
theorem levels_pair {tighter looser : List (τ → Option β)} {op : τ → Option β}
    {operand : Parser τ ε α} {join : α → β → α → α} {ts mid rest : List τ} {t : τ} {a c : α} {b : β}
    (hleft : operand ts = .ok a (t :: mid)) (hright : operand mid = .ok c rest)
    (htighter : ∀ op ∈ tighter, op t = none) (hop : op t = some b)
    (hend : ∀ op' ∈ tighter ++ op :: looser, op' (head rest) = none) :
    levels (tighter ++ op :: looser) operand join ts = .ok (join a b c) rest := by
  have hl : levels tighter operand join ts = .ok a (t :: mid) := levels_single hleft htighter
  have hr : levels tighter operand join mid = .ok c rest :=
    levels_single hright fun op' hop' => hend op' (List.mem_append_left _ hop')
  unfold levels
  rw [List.foldl_append, List.foldl_cons]
  apply levels_single (chain_pair hl hop hr (hend op (by simp)))
  intro op' hop'
  exact hend op' (by simp [hop'])

theorem chain_right_error {op : τ → Option β} {operand : Parser τ ε α} {join : α → β → α → α}
    {ts mid : List τ} {t : τ} {a : α} {b : β} {e : ε} (hleft : operand ts = .ok a (t :: mid))
    (hop : op t = some b) (hright : operand mid = .error e) :
    chain op operand join ts = .error e := by
  simp [chain, chainFrom, hleft, hop, hright]

theorem levels_error {ops : List (τ → Option β)} {operand : Parser τ ε α} {join : α → β → α → α}
    {ts : List τ} {e : ε} (h : operand ts = .error e) : levels ops operand join ts = .error e := by
  induction ops generalizing operand with
  | nil => exact h
  | cons op ops ih => exact ih (chain_error h)

/-- An error behind the operator goes through all levels. -/
theorem levels_right_error {tighter looser : List (τ → Option β)} {op : τ → Option β}
    {operand : Parser τ ε α} {join : α → β → α → α} {ts mid : List τ} {t : τ} {a : α} {b : β} {e : ε}
    (hleft : operand ts = .ok a (t :: mid)) (hright : operand mid = .error e)
    (htighter : ∀ op ∈ tighter, op t = none) (hop : op t = some b) :
    levels (tighter ++ op :: looser) operand join ts = .error e := by
  have hl : levels tighter operand join ts = .ok a (t :: mid) := levels_single hleft htighter
  have hr : levels tighter operand join mid = .error e := levels_error hright
  unfold levels
  rw [List.foldl_append, List.foldl_cons]
  exact levels_error (chain_right_error hl hop hr)

end Reading

section Ensures

/-- What holds of every value a parser answers with and of the tokens then left. -/
def Ensures (p : Parser τ ε α) (P : α → List τ → Prop) : Prop :=
  ∀ ts a rest, p ts = .ok a rest → P a rest

theorem Ensures.mono {p : Parser τ ε α} {P Q : α → List τ → Prop} (h : Ensures p P)
    (hPQ : ∀ a rest, P a rest → Q a rest) : Ensures p Q :=
  fun ts a rest hok => hPQ a rest (h ts a rest hok)

theorem ensures_pure {a : α} {P : α → List τ → Prop} (h : ∀ ts, P a ts) :
    Ensures (pure a : Parser τ ε α) P := by
  intro ts b rest hok
  cases hok
  exact h ts

theorem ensures_fail {e : ε} {P : α → List τ → Prop} : Ensures (fail e : Parser τ ε α) P := by
  intro ts a rest hok
  cases hok

theorem ensures_ite {c : Prop} [Decidable c] {p q : Parser τ ε α} {P : α → List τ → Prop}
    (hp : Ensures p P) (hq : Ensures q P) : Ensures (if c then p else q) P := by
  split
  · exact hp
  · exact hq

theorem Ensures.bind {p : Parser τ ε α} {f : α → Parser τ ε β} {P : α → Prop}
    {Q : β → List τ → Prop} (hp : Ensures p fun a _ => P a) (hf : ∀ a, P a → Ensures (f a) Q) :
    Ensures (p >>= f) Q := by
  intro ts b rest hok
  obtain ⟨a, mid, ha, hb⟩ := Reply.bind_eq_ok (r := p ts) hok
  exact hf a (hp ts a mid ha) mid b rest hb

/-- A step whose value does not matter. -/
theorem ensures_then {p : Parser τ ε α} {f : α → Parser τ ε β} {Q : β → List τ → Prop}
    (hf : ∀ a, Ensures (f a) Q) : Ensures (p >>= f) Q :=
  Ensures.bind (P := fun _ => True) (fun _ _ _ _ => trivial) fun a _ => hf a

theorem Ensures.withError {p : Parser τ ε α} {P : α → List τ → Prop} (h : Ensures p P)
    (f : ε → ε) : Ensures (withError f p) P :=
  fun ts a rest hok => h ts a rest (Reply.mapError_eq_ok hok)

theorem Ensures.map {p : Parser τ ε α} {P : α → List τ → Prop} {Q : β → List τ → Prop} {f : α → β}
    (h : Ensures p P) (hf : ∀ a rest, P a rest → Q (f a) rest) : Ensures (f <$> p) Q := by
  intro ts b rest hok
  obtain ⟨a, mid, ha, hb⟩ := Reply.bind_eq_ok (r := p ts) hok
  cases hb
  exact hf a rest (h ts a rest ha)

theorem ensures_unroll {f : Parser τ ε α → Parser τ ε α} {P : α → List τ → Prop}
    (hf : ∀ p, Ensures p P → Ensures (f p) P) (n : Nat) : Ensures (unroll f n) P := by
  induction n with
  | zero =>
    intro ts a rest hok
    cases hok
  | succ n ih => exact hf _ ih

theorem ensures_recursive {f : Parser τ ε α → Parser τ ε α} {P : α → List τ → Prop}
    (hf : ∀ p, Ensures p P → Ensures (f p) P) : Ensures (recursive f) P :=
  fun ts => ensures_unroll hf (ts.length + 1) ts

variable [Inhabited τ]

/-- What holds of each item holds of all that a loop returns. -/
theorem ensures_many {go : τ → Bool} {item : Parser τ ε (Option α)} {P : α → Prop}
    (hitem : Ensures item fun a _ => ∀ x ∈ a, P x) :
    Ensures (many go item) fun as rest => (∀ x ∈ as, P x) ∧ go (head rest) = false := by
  intro ts as rest hok
  have hfrom : ∀ n ts as, manyFrom go item n ts = .ok as rest →
      (∀ x ∈ as, P x) ∧ go (head rest) = false := by
    intro n
    induction n with
    | zero =>
      intro ts as hok
      cases hok
    | succ n ih =>
      intro ts as hok
      unfold manyFrom at hok
      split at hok
      · obtain ⟨a, mid, ha, hmid⟩ := Reply.bind_eq_ok hok
        obtain ⟨bs, end', hbs, hend⟩ := Reply.bind_eq_ok hmid
        cases hend
        obtain ⟨hrest, hstop⟩ := ih mid bs hbs
        refine ⟨?_, hstop⟩
        intro x hx
        rcases List.mem_append.mp hx with hx | hx
        · exact hitem ts a mid ha x (by simpa using hx)
        · exact hrest x hx
      · cases hok
        simp_all
  exact hfrom _ ts as hok

/-- A loop whose body ends where the loop ends goes round at most once. -/
theorem ensures_many_once {go : τ → Bool} {item : Parser τ ε (Option α)}
    (hitem : Ensures item fun _ rest => go (head rest) = false) :
    Ensures (many go item) fun as _ => as.length ≤ 1 := by
  intro ts as rest hok
  unfold many manyFrom at hok
  split at hok
  · obtain ⟨a, mid, ha, hmid⟩ := Reply.bind_eq_ok hok
    obtain ⟨bs, end', hbs, hend⟩ := Reply.bind_eq_ok hmid
    cases hend
    have hnil : bs = [] := by
      cases hlength : ts.length with
      | zero =>
        rw [hlength] at hbs
        cases hbs
      | succ n =>
        have hstop := hitem ts a mid ha
        rw [hlength] at hbs
        simp only [manyFrom, hstop, Bool.false_eq_true, if_false] at hbs
        cases hbs
        rfl
    cases a <;> simp [hnil]
  · cases hok
    simp

/-- What holds of each item holds of all in the list. -/
theorem ensures_separated {stop comma : τ → Bool} {item : Parser τ ε α} {P : α → Prop}
    (hitem : Ensures item fun a _ => P a) :
    Ensures (separated stop comma item) fun as _ => ∀ x ∈ as, P x := by
  intro ts as rest hok
  have hfrom : ∀ n ts as, separatedFrom stop comma item n ts = .ok as rest → ∀ x ∈ as, P x := by
    intro n
    induction n with
    | zero =>
      intro ts as hok
      cases hok
    | succ n ih =>
      intro ts as hok
      unfold separatedFrom at hok
      split at hok
      · cases hok
        simp
      · obtain ⟨a, mid, ha, hmid⟩ := Reply.bind_eq_ok hok
        have hP := hitem ts a mid ha
        split at hmid
        · obtain ⟨bs, end', hbs, hend⟩ := Reply.bind_eq_ok hmid
          cases hend
          simpa [hP] using ih _ bs hbs
        · cases hmid
          simpa using hP
  exact hfrom _ ts as hok

/-- What a join keeps holds of what a level of operators returns. -/
theorem ensures_chain {op : τ → Option β} {operand : Parser τ ε α} {join : α → β → α → α}
    {P : α → Prop} (hoperand : Ensures operand fun a _ => P a)
    (hjoin : ∀ a b c, P a → P c → P (join a b c)) :
    Ensures (chain op operand join) fun a _ => P a := by
  intro ts a rest hok
  obtain ⟨left, mid, hleft, hmid⟩ := Reply.bind_eq_ok hok
  have hfrom : ∀ n left ts, P left → chainFrom op operand join n left ts = .ok a rest → P a := by
    intro n
    induction n with
    | zero =>
      intro left ts _ hok
      cases hok
    | succ n ih =>
      intro left ts hP hok
      unfold chainFrom at hok
      split at hok
      · cases hok
        exact hP
      · obtain ⟨right, next, hright, hnext⟩ := Reply.bind_eq_ok hok
        exact ih _ next (hjoin left _ right hP (hoperand _ right next hright)) hnext
  exact hfrom _ left mid (hoperand ts left mid hleft) hmid

end Ensures

end RecursiveDescent
