import Mathlib.Algebra.GroupWithZero.Nat
import Tentacle.RecursiveDescent

/-!
# Counting the work of recursive descent

A parser of `RecursiveDescent` together with the number of calls and loop iterations it takes on a
list of tokens. Counting changes no answer: the parser of a counted combinator is the combinator
of the parsers. `Runs` says of one input that the parser ends, and what then holds of the value,
the tokens left and the count. With a worth of `K` for each token read, a loop whose items pay for
themselves pays for all its iterations.
-/

namespace RecursiveDescent

variable {τ ε α β : Type}

/-- A parser and what it costs on a list of tokens. -/
structure Counted (τ ε α : Type) where
  parser : Parser τ ε α
  cost : List τ → Nat

namespace Counted

/-- What comes after an answer costs nothing unless there is one. -/
def costAfter (r : Reply τ ε α) (f : α → List τ → Nat) : Nat :=
  match r with
  | .ok a rest => f a rest
  | .error _ => 0
  | .exhausted => 0

instance : Monad (Counted τ ε) where
  pure a := ⟨pure a, fun _ => 0⟩
  bind p f := ⟨p.parser >>= fun a => (f a).parser,
    fun ts => p.cost ts + costAfter (p.parser ts) fun a rest => (f a).cost rest⟩

/-- A parser whose cost is known. -/
def prim (n : Nat) (p : Parser τ ε α) : Counted τ ε α := ⟨p, fun _ => n⟩

/-- `n` more calls. -/
def tick (n : Nat) (p : Counted τ ε α) : Counted τ ε α := ⟨p.parser, fun ts => n + p.cost ts⟩

/-- A call of a function. -/
def call (p : Counted τ ε α) : Counted τ ε α := tick 1 p

def withError (f : ε → ε) (p : Counted τ ε α) : Counted τ ε α :=
  ⟨RecursiveDescent.withError f p.parser, p.cost⟩

def exhausted : Counted τ ε α := prim 0 fun _ => .exhausted

/-- A loop on a bound taken from the number of tokens left. -/
def bounded (f : Nat → Counted τ ε α) : Counted τ ε α :=
  ⟨fun ts => (f (ts.length + 1)).parser ts, fun ts => (f (ts.length + 1)).cost ts⟩

def unroll (f : Counted τ ε α → Counted τ ε α) : Nat → Counted τ ε α
  | 0 => exhausted
  | n + 1 => f (unroll f n)

def recursive (f : Counted τ ε α → Counted τ ε α) : Counted τ ε α := bounded (unroll f)

section Combinators

variable [Inhabited τ]

/-- The test before each iteration costs `test`, the iteration itself one. -/
def manyFrom (test : Nat) (go : τ → Bool) (item : Counted τ ε (Option α)) :
    Nat → Counted τ ε (List α)
  | 0 => exhausted
  | n + 1 => do
    let t ← prim 0 peek
    if go t then
      tick (test + 1) do
        let a ← item
        let as ← manyFrom test go item n
        pure (a.toList ++ as)
    else tick test (pure [])

def many (test : Nat) (go : τ → Bool) (item : Counted τ ε (Option α)) : Counted τ ε (List α) :=
  bounded (manyFrom test go item)

/-- `sep` is what it costs to look for a separator and go over it. -/
def separatedFrom (test sep : Nat) (stop comma : τ → Bool) (item : Counted τ ε α) :
    Nat → Counted τ ε (List α)
  | 0 => exhausted
  | n + 1 => do
    let t ← prim 0 peek
    if stop t then tick test (pure [])
    else
      tick (test + 1) do
        let a ← item
        let more ← prim sep (accept comma)
        if more then do
          let as ← separatedFrom test sep stop comma item n
          pure (a :: as)
        else pure [a]

def separated (test sep : Nat) (stop comma : τ → Bool) (item : Counted τ ε α) :
    Counted τ ε (List α) :=
  bounded (separatedFrom test sep stop comma item)

/-- `step` is what it costs to go over an operator. -/
def chainFrom (test step : Nat) (op : τ → Option β) (operand : Counted τ ε α)
    (join : α → β → α → α) : Nat → α → Counted τ ε α
  | 0, _ => exhausted
  | n + 1, left => do
    let t ← prim 0 peek
    match op t with
    | none => tick test (pure left)
    | some b =>
      tick (test + 1) do
        let _ ← prim step advance
        let right ← operand
        chainFrom test step op operand join n (join left b right)

def chain (test step : Nat) (op : τ → Option β) (operand : Counted τ ε α)
    (join : α → β → α → α) : Counted τ ε α := do
  let left ← operand
  bounded fun n => chainFrom test step op operand join n left

end Combinators

/-! ## Counting changes no answer -/

section Parsers

@[simp] theorem parser_pure (a : α) : (pure a : Counted τ ε α).parser = pure a := rfl

@[simp] theorem parser_bind (p : Counted τ ε α) (f : α → Counted τ ε β) :
    (p >>= f).parser = p.parser >>= fun a => (f a).parser := rfl

@[simp] theorem parser_map (f : α → β) (p : Counted τ ε α) :
    (f <$> p).parser = f <$> p.parser := rfl

@[simp] theorem parser_ite {c : Prop} [Decidable c] (p q : Counted τ ε α) :
    (if c then p else q).parser = if c then p.parser else q.parser := by
  split <;> rfl

@[simp] theorem parser_prim (n : Nat) (p : Parser τ ε α) : (prim n p).parser = p := rfl

@[simp] theorem parser_tick (n : Nat) (p : Counted τ ε α) : (tick n p).parser = p.parser := rfl

@[simp] theorem parser_call (p : Counted τ ε α) : (call p).parser = p.parser := rfl

@[simp] theorem parser_withError (f : ε → ε) (p : Counted τ ε α) :
    (withError f p).parser = RecursiveDescent.withError f p.parser := rfl

theorem parser_bounded {f : Nat → Counted τ ε α} {g : Nat → Parser τ ε α}
    (h : ∀ n, (f n).parser = g n) : (bounded f).parser = fun ts => g (ts.length + 1) ts := by
  funext ts
  exact congrFun (h (ts.length + 1)) ts

/-- Counting goes through a recursion: both descend with the tokens. -/
theorem parser_recursive {f : Counted τ ε α → Counted τ ε α} {g : Parser τ ε α → Parser τ ε α}
    (h : ∀ p, (f p).parser = g p.parser) :
    (recursive f).parser = RecursiveDescent.recursive g := by
  apply parser_bounded
  intro n
  induction n with
  | zero => rfl
  | succ n ih => rw [unroll, h, ih, RecursiveDescent.unroll]

variable [Inhabited τ]

@[simp] theorem parser_many (test : Nat) (go : τ → Bool) (item : Counted τ ε (Option α)) :
    (many test go item).parser = RecursiveDescent.many go item.parser := by
  apply parser_bounded
  intro n
  induction n with
  | zero => rfl
  | succ n ih =>
    funext ts
    simp [manyFrom, RecursiveDescent.manyFrom, ih]

@[simp] theorem parser_separated (test sep : Nat) (stop comma : τ → Bool) (item : Counted τ ε α) :
    (separated test sep stop comma item).parser =
      RecursiveDescent.separated stop comma item.parser := by
  apply parser_bounded
  intro n
  induction n with
  | zero => rfl
  | succ n ih =>
    funext ts
    simp only [separatedFrom, RecursiveDescent.separatedFrom, parser_bind, parser_prim, bind_apply,
      peek_apply, Reply.ok_bind, parser_ite, parser_tick, parser_pure, ite_apply, pure_apply,
      accept_apply, ih]
    congr
    funext a mid
    split <;> simp

@[simp] theorem parser_chain (test step : Nat) (op : τ → Option β) (operand : Counted τ ε α)
    (join : α → β → α → α) :
    (chain test step op operand join).parser =
      RecursiveDescent.chain op operand.parser join := by
  have hfrom : ∀ n left, (chainFrom test step op operand join n left).parser =
      RecursiveDescent.chainFrom op operand.parser join n left := by
    intro n
    induction n with
    | zero => intro left; rfl
    | succ n ih =>
      intro left
      funext ts
      simp only [chainFrom, RecursiveDescent.chainFrom, parser_bind, parser_prim, bind_apply,
        peek_apply, Reply.ok_bind]
      cases op (head ts) with
      | none => rfl
      | some b => simp [ih]
  funext ts
  rw [chain, parser_bind]
  simp only [parser_bounded (hfrom · _)]
  rfl

end Parsers

/-! ## Runs -/

/-- The parser ends on these tokens: with a value, the tokens left and a cost that satisfy `Q`, or
with an error and a cost that satisfies `E`. -/
def Runs (p : Counted τ ε α) (ts : List τ) (Q : α → List τ → Nat → Prop) (E : Nat → Prop) : Prop :=
  match p.parser ts with
  | .ok a rest => Q a rest (p.cost ts)
  | .error _ => E (p.cost ts)
  | .exhausted => False

section Rules

variable {p : Counted τ ε α} {ts : List τ} {Q : α → List τ → Nat → Prop} {E : Nat → Prop}

theorem Runs.imp {Q' : α → List τ → Nat → Prop} {E' : Nat → Prop} (h : Runs p ts Q E)
    (hQ : ∀ a rest c, Q a rest c → Q' a rest c) (hE : ∀ c, E c → E' c) : Runs p ts Q' E' := by
  unfold Runs at *
  cases hreply : p.parser ts with
  | ok a rest =>
    rw [hreply] at h
    exact hQ a rest _ h
  | error e =>
    rw [hreply] at h
    exact hE _ h
  | exhausted =>
    rw [hreply] at h
    exact h

theorem runs_pure {a : α} (h : Q a ts 0) : Runs (pure a : Counted τ ε α) ts Q E := h

/-- A part whose run is known, and what comes after it. -/
theorem Runs.bind {f : α → Counted τ ε β} {Q' : β → List τ → Nat → Prop} {E' : Nat → Prop}
    (h : Runs p ts Q E)
    (hf : ∀ a rest c, Q a rest c → Runs (f a) rest (fun b rest' c' => Q' b rest' (c + c'))
      (fun c' => E' (c + c'))) (hE : ∀ c, E c → E' c) : Runs (p >>= f) ts Q' E' := by
  unfold Runs at h ⊢
  rw [parser_bind, bind_apply]
  have hcost : (p >>= f).cost ts =
      p.cost ts + costAfter (p.parser ts) fun a rest => (f a).cost rest := rfl
  cases hreply : p.parser ts with
  | ok a rest =>
    rw [hreply] at h hcost
    rw [hcost, Reply.ok_bind]
    exact hf a rest _ h
  | error e =>
    rw [hreply] at h hcost
    rw [hcost, Reply.error_bind]
    exact hE _ h
  | exhausted =>
    rw [hreply] at h
    exact h.elim

theorem runs_map {f : α → β} {Q : β → List τ → Nat → Prop}
    (h : Runs p ts (fun a rest c => Q (f a) rest c) E) : Runs (f <$> p) ts Q E :=
  h.bind (fun _ _ _ hQ => hQ) fun _ hE => hE

theorem runs_tick {n : Nat}
    (h : Runs p ts (fun a rest c => Q a rest (n + c)) (fun c => E (n + c))) :
    Runs (tick n p) ts Q E := h

theorem runs_call (h : Runs p ts (fun a rest c => Q a rest (1 + c)) (fun c => E (1 + c))) :
    Runs (call p) ts Q E := h

theorem runs_fail {n : Nat} {er : ε} (h : E n) :
    Runs (prim n (fail er) : Counted τ ε α) ts Q E := h

theorem runs_ite {c : Prop} [Decidable c] {q : Counted τ ε α} (hp : c → Runs p ts Q E)
    (hq : ¬ c → Runs q ts Q E) : Runs (if c then p else q) ts Q E := by
  split
  · exact hp ‹_›
  · exact hq ‹_›

theorem runs_withError {f : ε → ε} (h : Runs p ts Q E) : Runs (withError f p) ts Q E := by
  unfold Runs at *
  rw [parser_withError, withError_apply]
  cases hreply : p.parser ts with
  | ok a rest =>
    rw [hreply] at h
    exact h
  | error e =>
    rw [hreply] at h
    exact h
  | exhausted =>
    rw [hreply] at h
    exact h.elim

theorem runs_bounded {f : Nat → Counted τ ε α} (h : Runs (f (ts.length + 1)) ts Q E) :
    Runs (bounded f) ts Q E := h

variable [Inhabited τ]

theorem runs_peek {n : Nat} {f : τ → Counted τ ε α}
    (h : Runs (f (head ts)) ts (fun a rest c => Q a rest (n + c)) (fun c => E (n + c))) :
    Runs (prim n peek >>= f) ts Q E := h

theorem runs_advance {n : Nat} {f : τ → Counted τ ε α}
    (h : Runs (f (head ts)) ts.tail (fun a rest c => Q a rest (n + c)) (fun c => E (n + c))) :
    Runs (prim n advance >>= f) ts Q E := h

/-- After a test the run goes on in the branch that it chose. -/
theorem runs_accept {n : Nat} {test : τ → Bool} {f : Bool → Counted τ ε α}
    (htrue : test (head ts) = true →
      Runs (f true) ts.tail (fun a rest c => Q a rest (n + c)) (fun c => E (n + c)))
    (hfalse : test (head ts) = false →
      Runs (f false) ts (fun a rest c => Q a rest (n + c)) (fun c => E (n + c))) :
    Runs (prim n (accept test) >>= f) ts Q E := by
  unfold Runs
  have hcost : (prim n (accept test) >>= f).cost ts =
      n + costAfter (accept test ts) fun a rest => (f a).cost rest := rfl
  rw [parser_bind, bind_apply, parser_prim, hcost, accept_apply]
  cases htest : test (head ts) with
  | true => exact htrue htest
  | false => exact hfalse htest

end Rules

/-! ## Parsers that pay for themselves -/

/-- The sizes of all items together. -/
def total (size : α → Nat) (as : List α) : Nat := (as.map size).sum

section Total

variable (size : α → Nat)

@[simp] theorem total_nil : total size [] = 0 := rfl

@[simp] theorem total_cons (a : α) (as : List α) :
    total size (a :: as) = size a + total size as := by
  simp [total]

@[simp] theorem total_append (as bs : List α) :
    total size (as ++ bs) = total size as + total size bs := by
  simp [total]

end Total

section Pays

variable [Inhabited τ]

/-- Before fewer than `n` tokens of which the first passes the test, the parser ends. A token is
worth `K`: those read pay for the value and the count and leave `s` over, and after an error all
of them and `e` more pay for the count. -/
def Pays (K n : Nat) (go : τ → Bool) (size : α → Nat) (s e : Nat) (p : Counted τ ε α) : Prop :=
  ∀ ts, ts.length < n → go (head ts) = true →
    Runs p ts (fun a rest c => size a ≤ c ∧ c + K * rest.length + s ≤ K * ts.length)
      (fun c => c ≤ e + K * ts.length)

variable {K n s e : Nat} {go : τ → Bool} {size : α → Nat}

/-- A parser that pays for less pays for more tokens and higher costs too. -/
theorem Pays.imp {p : Counted τ ε α} {n' s' e' : Nat} {go' : τ → Bool}
    (h : Pays K n go size s e p) (hn : n' ≤ n) (hgo : ∀ t, go' t = true → go t = true)
    (hs : s' ≤ s) (he : e ≤ e') : Pays K n' go' size s' e' p := by
  intro ts hlt hhead
  refine (h ts (by omega) (hgo _ hhead)).imp ?_ ?_
  · rintro a rest c ⟨hsize, hpaid⟩
    exact ⟨hsize, by omega⟩
  · intro c hc
    omega

/-- One level of recursion costs one step more at its end. -/
theorem pays_call {p : Counted τ ε α} (h : Pays K n go size (s + 1) e p) :
    Pays K n go size s (e + 1) (call p) := by
  intro ts hlt hhead
  refine runs_call ((h ts hlt hhead).imp ?_ ?_)
  · rintro a rest c ⟨hsize, hpaid⟩
    constructor <;> omega
  · intro c hc
    omega

/-- A parser that calls itself only on shorter lists. -/
theorem pays_recursive {f : Counted τ ε α → Counted τ ε α}
    (hf : ∀ p m, m < n → Pays K m go size s e p → Pays K (m + 1) go size s e (f p)) :
    Pays K n go size s e (recursive f) := by
  have hunroll : ∀ m, m ≤ n → Pays K m go size s e (unroll f m) := by
    intro m
    induction m with
    | zero => intro _ ts hlt; omega
    | succ m ih => intro hm; exact hf _ m (by omega) (ih (by omega))
  intro ts hlt hhead
  exact runs_bounded (hunroll (ts.length + 1) (by omega) ts (by omega) hhead)

/-- A loop whose items pay for the test before them. -/
theorem runs_many {test : Nat} {item : Counted τ ε (Option α)} {ts : List τ}
    (hitem : Pays K n go (fun a => total size a.toList) (test + 1) e item) (hlt : ts.length < n) :
    Runs (many test go item) ts
      (fun as rest c => total size as ≤ c ∧ c + K * rest.length ≤ test + K * ts.length)
      (fun c => c ≤ test + 1 + e + K * ts.length) := by
  have hfrom : ∀ m ts, ts.length < m → ts.length < n →
      Runs (manyFrom test go item m) ts
        (fun as rest c => total size as ≤ c ∧ c + K * rest.length ≤ test + K * ts.length)
        (fun c => c ≤ test + 1 + e + K * ts.length) := by
    intro m
    induction m with
    | zero => intro ts hm; omega
    | succ m ih =>
      intro ts hm hn
      rw [manyFrom]
      refine runs_peek (runs_ite ?_ ?_)
      · intro hgo
        refine runs_tick ((hitem ts hn hgo).bind ?_ ?_)
        · rintro a mid c ⟨hsize, hpaid⟩
          -- the item read something: what it read paid for more than nothing
          have hmid : mid.length < ts.length := by
            by_contra hle
            have hK := Nat.mul_le_mul_left K (Nat.le_of_not_lt hle)
            omega
          refine (ih mid (by omega) (by omega)).bind ?_ ?_
          · rintro as rest c' ⟨hsizes, hrest⟩
            apply runs_pure
            simp only [total_append] at hsize ⊢
            omega
          · intro c' hc'
            omega
        · intro c hc
          omega
      · intro _
        apply runs_tick
        apply runs_pure
        simp only [total_nil]
        omega
  exact runs_bounded (hfrom (ts.length + 1) ts (by omega) hlt)

/-- A token that passes a test which the default token fails is there. -/
theorem exists_eq_cons (test : τ → Bool) (hdefault : test default = false) {ts : List τ}
    (h : test (head ts) = true) : ∃ t rest, ts = t :: rest := by
  cases ts with
  | nil => simp [hdefault] at h
  | cons t rest => exact ⟨t, rest, rfl⟩

/-- A loop with separators, each of which pays for what comes before the next item. -/
theorem runs_separated {test sep : Nat} {stop comma : τ → Bool} {item : Counted τ ε α}
    {ts : List τ} (hitem : Pays K n (fun t => !stop t) size s e item)
    (hcomma : comma default = false) (hK : test + 1 + sep ≤ K) (hlt : ts.length < n) :
    Runs (separated test sep stop comma item) ts
      (fun as rest c => total size as ≤ c ∧
        c + K * rest.length + (if stop (head ts) then 0 else s) ≤ test + 1 + sep + K * ts.length)
      (fun c => c ≤ test + 1 + e + K * ts.length) := by
  have hfrom : ∀ m ts, ts.length < m → ts.length < n →
      Runs (separatedFrom test sep stop comma item m) ts
        (fun as rest c => total size as ≤ c ∧
          c + K * rest.length + (if stop (head ts) then 0 else s) ≤ test + 1 + sep + K * ts.length)
        (fun c => c ≤ test + 1 + e + K * ts.length) := by
    intro m
    induction m with
    | zero => intro ts hm; omega
    | succ m ih =>
      intro ts hm hn
      rw [separatedFrom]
      refine runs_peek (runs_ite ?_ ?_)
      · intro hstop
        apply runs_tick
        apply runs_pure
        simp only [total_nil, hstop, if_true]
        omega
      · intro hstop
        refine runs_tick ((hitem ts hn (by simp [hstop])).bind ?_ ?_)
        · rintro a mid c ⟨hsize, hpaid⟩
          simp only [hstop, if_false]
          refine runs_accept ?_ ?_
          · intro hsep
            obtain ⟨t, mid, rfl⟩ := exists_eq_cons comma hcomma hsep
            simp only [if_true, List.tail_cons, List.length_cons, Nat.mul_add, Nat.mul_one]
              at hpaid ⊢
            have hmid : mid.length < ts.length := by
              by_contra hle
              have hle := Nat.mul_le_mul_left K (Nat.le_of_not_lt hle)
              omega
            refine (ih mid (by omega) (by omega)).bind ?_ ?_
            · rintro as rest c' ⟨hsizes, hrest⟩
              apply runs_pure
              simp only [total_cons]
              omega
            · intro c' hc'
              omega
          · intro _
            simp only [Bool.false_eq_true, if_false]
            apply runs_pure
            simp only [total_cons, total_nil]
            omega
        · intro c hc
          omega
  exact runs_bounded (hfrom (ts.length + 1) ts (by omega) hlt)

/-- A level of operators, each of which pays for what comes before its right operand. -/
theorem pays_chain {test step : Nat} {op : τ → Option β} {operand : Counted τ ε α}
    {join : α → β → α → α} (hoperand : Pays K n (fun _ => true) size (s + test) e operand)
    (hjoin : ∀ a b c, size (join a b c) ≤ size a + size c + 1) (hop : op default = none)
    (hK : test + 1 + step ≤ K) :
    Pays K n (fun _ => true) size s e (chain test step op operand join) := by
  have hfrom : ∀ m left ts, ts.length < m → ts.length < n →
      Runs (chainFrom test step op operand join m left) ts
        (fun a rest c => size a ≤ size left + c ∧ c + K * rest.length ≤ test + K * ts.length)
        (fun c => c ≤ test + e + K * ts.length) := by
    intro m
    induction m with
    | zero => intro left ts hm; omega
    | succ m ih =>
      intro left ts hm hn
      rw [chainFrom]
      apply runs_peek
      cases hhead : op (head ts) with
      | none =>
        apply runs_tick
        apply runs_pure
        omega
      | some b =>
        have hsome : (op (head ts)).isSome = true := by simp [hhead]
        obtain ⟨t, ts, rfl⟩ := exists_eq_cons (fun t => (op t).isSome) (by simp [hop]) hsome
        simp only [List.length_cons, Nat.mul_add, Nat.mul_one] at hm hn ⊢
        refine runs_tick (runs_advance ((hoperand ts (by omega) rfl).bind ?_ ?_))
        · rintro right mid c ⟨hsize, hpaid⟩
          have hmid : mid.length < ts.length + 1 := by
            by_contra hle
            have hle := Nat.mul_le_mul_left K (Nat.le_of_not_lt hle)
            rw [Nat.mul_add, Nat.mul_one] at hle
            omega
          have hsizes := hjoin left b right
          refine (ih (join left b right) mid (by omega) (by omega)).imp ?_ ?_
          · rintro a rest c' ⟨hsize', hrest⟩
            omega
          · intro c' hc'
            omega
        · intro c hc
          omega
  intro ts hlt _
  refine (hoperand ts hlt rfl).bind ?_ fun _ hc => hc
  rintro left mid c ⟨hsize, hpaid⟩
  have hmid : mid.length ≤ ts.length := by
    by_contra hle
    have hle := Nat.mul_le_mul_left K (Nat.lt_of_not_le hle)
    rw [Nat.mul_succ] at hle
    omega
  refine (runs_bounded (hfrom (mid.length + 1) left mid (by omega) (by omega))).imp ?_ ?_
  · rintro a rest c' ⟨hsize', hrest⟩
    omega
  · intro c' hc'
    omega

end Pays

end Counted

end RecursiveDescent
