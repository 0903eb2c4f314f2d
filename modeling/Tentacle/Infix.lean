import Mathlib
import Tentacle.RecursiveDescent

/-!
# Binary operators with precedences

A sequence of operands with operators between them, and the tree that a table of levels assigns to
it: a lower level binds tighter, and operators of one level associate to the left.
-/

namespace Infix

variable {α β γ : Type}

inductive Tree (α β : Type) where
  | leaf (a : α)
  | node (left : Tree α β) (op : β) (right : Tree α β)

section Resolve

variable (level : β → Nat)

/-- A further operator and operand at the end: it takes the part of the right edge that binds
tighter. -/
def append : Tree α β → β → α → Tree α β
  | .leaf a, op, x => .node (.leaf a) op (.leaf x)
  | .node l o r, op, x =>
    if level op < level o then .node l o (append r op x) else .node (.node l o r) op (.leaf x)

/-- The tree of a sequence, started from the tree of its first part. -/
def resolve (t : Tree α β) (s : List (β × α)) : Tree α β :=
  s.foldl (fun t p => append level t p.1 p.2) t

@[simp] theorem resolve_nil (t : Tree α β) : resolve level t [] = t := rfl

@[simp] theorem resolve_cons (t : Tree α β) (op : β) (x : α) (s : List (β × α)) :
    resolve level t ((op, x) :: s) = resolve level (append level t op x) s := rfl

theorem resolve_append (t : Tree α β) (s s' : List (β × α)) :
    resolve level t (s ++ s') = resolve level (resolve level t s) s' :=
  List.foldl_append

end Resolve

def fold (join : α → β → α → α) : Tree α β → α
  | .leaf a => a
  | .node l op r => join (fold join l) op (fold join r)

/-- The operator at the root binds at least as tight as a level. -/
def RootLe (level : β → Nat) (t : Tree α β) (n : Nat) : Prop :=
  match t with
  | .leaf _ => True
  | .node _ o _ => level o ≤ n

section Levels

variable {level : β → Nat}

theorem rootLe_leaf (a : α) (n : Nat) : RootLe level (.leaf a) n := trivial

theorem append_of_rootLe {t : Tree α β} {op : β} (h : RootLe level t (level op)) (x : α) :
    append level t op x = .node t op (.leaf x) := by
  cases t with
  | leaf a => rfl
  | node l o r => exact if_neg (Nat.not_lt.mpr h)

/-- The root stays below a level that the new operator does not exceed. -/
theorem rootLe_append {t : Tree α β} {n : Nat} (h : RootLe level t n) {op : β} (hop : level op ≤ n)
    (x : α) : RootLe level (append level t op x) n := by
  cases t with
  | leaf a => exact hop
  | node l o r =>
    unfold append
    split
    · exact h
    · exact hop

theorem rootLe_resolve {t : Tree α β} {n : Nat} (h : RootLe level t n) {s : List (β × α)}
    (hs : ∀ p ∈ s, level p.1 ≤ n) : RootLe level (resolve level t s) n := by
  induction s generalizing t with
  | nil => exact h
  | cons p s ih =>
    exact ih (rootLe_append h (hs p List.mem_cons_self) p.2)
      fun q hq => hs q (List.mem_cons_of_mem p hq)

/-- Operators that bind tighter than the root go into its right operand. -/
theorem resolve_node (l : Tree α β) {o : β} (r : Tree α β) {s : List (β × α)}
    (hs : ∀ p ∈ s, level p.1 < level o) :
    resolve level (.node l o r) s = .node l o (resolve level r s) := by
  induction s generalizing r with
  | nil => rfl
  | cons p s ih =>
    obtain ⟨op, x⟩ := p
    have hop : level op < level o := hs _ List.mem_cons_self
    rw [resolve_cons, resolve_cons, append, if_pos hop]
    exact ih _ fun q hq => hs q (List.mem_cons_of_mem _ hq)

/-- The operators up to a level are those below it and then those of it. -/
theorem takeWhile_split (level : β → Nat) (k : Nat) (s : List (β × α)) :
    s.takeWhile (fun p => level p.1 < k + 1) = s.takeWhile (fun p => level p.1 < k) ++
        (s.dropWhile fun p => level p.1 < k).takeWhile (fun p => level p.1 < k + 1) ∧
      s.dropWhile (fun p => level p.1 < k + 1) =
        (s.dropWhile fun p => level p.1 < k).dropWhile (fun p => level p.1 < k + 1) := by
  induction s with
  | nil => simp
  | cons p s ih =>
    by_cases h : level p.1 < k
    · have h' : level p.1 < k + 1 := by omega
      simp only [List.takeWhile_cons, List.dropWhile_cons, h, h', decide_true, if_true,
        List.cons_append, List.cons.injEq, true_and]
      exact ih
    · simp only [List.takeWhile_cons, List.dropWhile_cons, h, decide_false, Bool.false_eq_true,
        if_false, List.nil_append, and_self]

/-- The first operator that is left over is not below the level. -/
theorem head_dropWhile (level : β → Nat) (k : Nat) (s : List (β × α)) :
    ∀ p ∈ (s.dropWhile fun p => level p.1 < k).head?, k ≤ level p.1 := by
  induction s with
  | nil => simp
  | cons p s ih =>
    by_cases h : level p.1 < k
    · simpa [h] using ih
    · have h' : k ≤ level p.1 := by omega
      simpa [h] using h'

end Levels

/-! ## Reading a sequence level by level -/

section Reading
open RecursiveDescent

variable {τ ε δ : Type} [Inhabited τ]

/-- Operands and operators as tokens, and a parser that reads them. -/
structure Reader (τ ε α β γ δ : Type) [Inhabited τ] where
  level : β → Nat
  ops : List (τ → Option β)
  operand : Parser τ ε γ
  join : γ → β → γ → γ
  op : δ → β
  opToken : δ → τ
  tokens : α → List τ
  value : α → γ
  /-- The tokens before which an operand ends. -/
  ends : τ → Prop
  level_lt : ∀ b, level b < ops.length
  op_level : ∀ d (i : Nat) (h : i < ops.length),
    ops[i] (opToken d) = if i = level (op d) then some (op d) else none
  ends_op : ∀ d, ends (opToken d)

namespace Reader

variable (R : Reader τ ε α β γ δ)

def sequenceTokens (s : List (δ × α)) : List τ :=
  s.flatMap fun p => R.opToken p.1 :: R.tokens p.2

/-- What follows a sequence: no operator, and nothing that goes on with an operand. -/
structure Ends (rest : List τ) : Prop where
  ends : R.ends (head rest)
  none : ∀ op ∈ R.ops, op (head rest) = none

/-- The operand parser reads the operand. -/
def Reads (x : α) : Prop :=
  ∀ rest, R.ends (head rest) → R.operand (R.tokens x ++ rest) = .ok (R.value x) rest

def leaves (s : List (δ × α)) : List (β × γ) := s.map fun p => (R.op p.1, R.value p.2)

variable {R}

theorem ends_sequence {s : List (δ × α)} {rest : List τ} (h : R.Ends rest) :
    R.ends (head (R.sequenceTokens s ++ rest)) := by
  cases s with
  | nil => exact h.ends
  | cons p s => exact R.ends_op p.1

@[simp] theorem sequenceTokens_nil : R.sequenceTokens [] = [] := rfl

@[simp] theorem sequenceTokens_cons (op : δ) (x : α) (s : List (δ × α)) :
    R.sequenceTokens ((op, x) :: s) = R.opToken op :: (R.tokens x ++ R.sequenceTokens s) := rfl

/-- Each further operand costs at least one token. -/
theorem length_lt_sequenceTokens (s : List (δ × α)) (rest : List τ) :
    s.length < (R.sequenceTokens s ++ rest).length + 1 := by
  induction s with
  | nil => simp
  | cons p s ih =>
    obtain ⟨op, x⟩ := p
    simp only [sequenceTokens_cons, List.length_cons, List.cons_append, List.length_append] at ih ⊢
    omega

theorem leaves_cons (op : δ) (x : α) (s : List (δ × α)) :
    R.leaves ((op, x) :: s) = (R.op op, R.value x) :: R.leaves s := rfl

theorem leaves_append (s s' : List (δ × α)) : R.leaves (s ++ s') = R.leaves s ++ R.leaves s' :=
  List.map_append

/-- The loop of one level, over the operands of the tighter levels. -/
theorem read_chainFrom {k : Nat} (hk : k < R.ops.length) {rest : List τ} (hrest : R.Ends rest)
    (hchunk : ∀ x s, R.Reads x → (∀ p ∈ s, R.Reads p.2) →
      levels (R.ops.take k) R.operand R.join (R.tokens x ++ (R.sequenceTokens s ++ rest)) =
        .ok (fold R.join (resolve R.level (.leaf (R.value x))
            (R.leaves (s.takeWhile fun p => R.level (R.op p.1) < k))))
          (R.sequenceTokens (s.dropWhile fun p => R.level (R.op p.1) < k) ++ rest))
    (n : Nat) (s : List (δ × α)) (hn : s.length < n) (hs : ∀ p ∈ s, R.Reads p.2)
    (hhead : ∀ p ∈ s.head?, k ≤ R.level (R.op p.1)) (t : Tree γ β) (ht : RootLe R.level t k) :
    chainFrom R.ops[k] (levels (R.ops.take k) R.operand R.join) R.join n (fold R.join t)
        (R.sequenceTokens s ++ rest) =
      .ok (fold R.join (resolve R.level t
          (R.leaves (s.takeWhile fun p => R.level (R.op p.1) < k + 1))))
        (R.sequenceTokens (s.dropWhile fun p => R.level (R.op p.1) < k + 1) ++ rest) := by
  induction n generalizing s t with
  | zero => omega
  | succ n ih =>
    cases s with
    | nil =>
      have hnone := hrest.none R.ops[k] (List.getElem_mem hk)
      simp [chainFrom, leaves, hnone]
    | cons p s =>
      obtain ⟨op, x⟩ := p
      have hle : k ≤ R.level (R.op op) := hhead _ rfl
      have hop := R.op_level op k hk
      by_cases heq : k = R.level (R.op op)
      · rw [if_pos heq] at hop
        have hs' : ∀ q ∈ s, R.Reads q.2 := fun q hq => hs q (List.mem_cons_of_mem _ hq)
        have hread := hchunk x s (hs _ List.mem_cons_self) hs'
        obtain ⟨htake, hdrop⟩ := takeWhile_split (fun d => R.level (R.op d)) k s
        set c := s.takeWhile fun p => R.level (R.op p.1) < k with hc
        set d := s.dropWhile fun p => R.level (R.op p.1) < k with hd
        -- the chunk read becomes the right operand of the operator
        have hnode : resolve R.level t (R.leaves ((op, x) :: c)) =
            .node t (R.op op) (resolve R.level (.leaf (R.value x)) (R.leaves c)) := by
          have htighter : ∀ p ∈ R.leaves c, R.level p.1 < R.level (R.op op) := by
            intro p hp
            obtain ⟨q, hq, rfl⟩ := List.mem_map.mp hp
            have hlt := List.all_eq_true.mp List.all_takeWhile q hq
            simpa [← heq] using hlt
          rw [leaves_cons, resolve_cons, append_of_rootLe (heq ▸ ht), resolve_node _ _ htighter]
        have hlength : d.length ≤ s.length := (List.dropWhile_sublist _).length_le
        have hnext := ih d (by simp only [List.length_cons] at hn; omega)
          (fun q hq => hs' q ((List.dropWhile_sublist _).mem hq))
          (head_dropWhile (fun d => R.level (R.op d)) k s)
          (resolve R.level t (R.leaves ((op, x) :: c)))
          (by rw [hnode]; exact Nat.le_of_eq heq.symm)
        have hlt : R.level (R.op op) < k + 1 := by omega
        rw [List.takeWhile_cons, if_pos (by simpa using hlt), List.dropWhile_cons,
          if_pos (by simpa using hlt), htake, hdrop, ← List.cons_append, leaves_append,
          resolve_append]
        rw [← hnext, hnode]
        simp [chainFrom, hop, hread, fold]
      · rw [if_neg heq] at hop
        have hnot : ¬ R.level (R.op op) < k + 1 := by omega
        rw [List.takeWhile_cons, if_neg (by simpa using hnot), List.dropWhile_cons,
          if_neg (by simpa using hnot)]
        simp [chainFrom, leaves, hop]

/-- With `k` levels the reader takes the operators below `k` and leaves the first other one. -/
theorem read_levels {rest : List τ} (hrest : R.Ends rest) {k : Nat} (hk : k ≤ R.ops.length)
    (x : α) (s : List (δ × α)) (hx : R.Reads x) (hs : ∀ p ∈ s, R.Reads p.2) :
    levels (R.ops.take k) R.operand R.join (R.tokens x ++ (R.sequenceTokens s ++ rest)) =
      .ok (fold R.join (resolve R.level (.leaf (R.value x))
          (R.leaves (s.takeWhile fun p => R.level (R.op p.1) < k))))
        (R.sequenceTokens (s.dropWhile fun p => R.level (R.op p.1) < k) ++ rest) := by
  induction k generalizing x s with
  | zero =>
    have hread := hx (R.sequenceTokens s ++ rest) (ends_sequence hrest)
    have hnone : ∀ s : List (δ × α), s.takeWhile (fun p => decide (R.level (R.op p.1) < 0)) = [] ∧
        s.dropWhile (fun p => decide (R.level (R.op p.1) < 0)) = s := by
      intro s
      cases s <;> simp
    rw [(hnone s).1, (hnone s).2]
    exact hread
  | succ k ih =>
    have hk' : k < R.ops.length := hk
    have hleft := ih (by omega) x s hx hs
    have hroot : RootLe R.level (resolve R.level (.leaf (R.value x))
        (R.leaves (s.takeWhile fun p => R.level (R.op p.1) < k))) k := by
      apply rootLe_resolve (rootLe_leaf _ _)
      intro p hp
      obtain ⟨q, hq, rfl⟩ := List.mem_map.mp hp
      have hlt := List.all_eq_true.mp List.all_takeWhile q hq
      simp only [decide_eq_true_eq] at hlt
      exact Nat.le_of_lt hlt
    obtain ⟨htake, hdrop⟩ := takeWhile_split (fun d => R.level (R.op d)) k s
    have hloop := read_chainFrom hk' hrest (fun y s' hy hs' => ih (by omega) y s' hy hs')
      ((R.sequenceTokens (s.dropWhile fun p => R.level (R.op p.1) < k) ++ rest).length + 1)
      (s.dropWhile fun p => R.level (R.op p.1) < k) (length_lt_sequenceTokens _ _)
      (fun q hq => hs q ((List.dropWhile_sublist _).mem hq))
      (head_dropWhile (fun d => R.level (R.op d)) k s) _ hroot
    rw [List.take_succ_eq_append_getElem hk', htake, hdrop, leaves_append, resolve_append, ← hloop]
    unfold levels
    rw [List.foldl_append]
    unfold levels at hleft
    simp [chain, hleft]

/-- Reading a sequence level by level gives the tree of the levels. -/
theorem read_sequence {rest : List τ} (hrest : R.Ends rest) (x : α) (s : List (δ × α))
    (hx : R.Reads x) (hs : ∀ p ∈ s, R.Reads p.2) :
    levels R.ops R.operand R.join (R.tokens x ++ (R.sequenceTokens s ++ rest)) =
      .ok (fold R.join (resolve R.level (.leaf (R.value x)) (R.leaves s))) rest := by
  have hread := read_levels hrest (Nat.le_refl _) x s hx hs
  have hall : ∀ p ∈ s, decide (R.level (R.op p.1) < R.ops.length) = true := by
    intro p _
    simpa using R.level_lt (R.op p.1)
  have htake : s.takeWhile (fun p => R.level (R.op p.1) < R.ops.length) = s :=
    List.takeWhile_eq_self_iff.mpr hall
  have hdrop : s.dropWhile (fun p => R.level (R.op p.1) < R.ops.length) = [] :=
    List.dropWhile_eq_nil_iff.mpr hall
  rw [List.take_length, htake, hdrop] at hread
  exact hread

end Reader

end Reading

/-! ## Two tables of levels -/

section Agreement

theorem append_ne_leaf (level : β → Nat) (t : Tree α β) (op : β) (x y : α) :
    append level t op x ≠ .leaf y := by
  cases t with
  | leaf a => simp [append]
  | node l o r =>
    unfold append
    split <;> simp

/-- The tree without its last operator and operand. -/
def dropLast : Tree α β → Tree α β
  | .leaf a => .leaf a
  | .node l _ (.leaf _) => l
  | .node l o (.node l' o' r') => .node l o (dropLast (.node l' o' r'))

/-- The last operand that was appended can be taken off again. -/
theorem dropLast_append (level : β → Nat) (t : Tree α β) (op : β) (x : α) :
    dropLast (append level t op x) = t := by
  induction t with
  | leaf a => rfl
  | node l o r _ ih =>
    unfold append
    split
    · cases hr : append level r op x with
      | leaf y => exact absurd hr (append_ne_leaf level r op x y)
      | node l' o' r' =>
        rw [hr] at ih
        rw [dropLast, ih]
    · rfl

/-- Whatever the tables, equal trees of a sequence come from equal trees of its first part. -/
theorem resolve_cancel {p q : β → Nat} {t t' : Tree α β} {s : List (β × α)}
    (h : resolve p t s = resolve q t' s) : t = t' := by
  induction s generalizing t t' with
  | nil => exact h
  | cons z s ih =>
    obtain ⟨op, x⟩ := z
    have happend : append p t op x = append q t' op x := ih h
    have hdrop := congrArg dropLast happend
    rwa [dropLast_append, dropLast_append] at hdrop

/-- Both tables put a further operator at the same place of the right edge. -/
def DescendsAlike (p q : β → Nat) : Tree α β → β → Prop
  | .leaf _, _ => True
  | .node _ o r, op => (p op < p o ↔ q op < q o) ∧ (p op < p o → DescendsAlike p q r op)

/-- Two precedences append alike exactly if they descend alike along the right edge. -/
theorem append_eq_iff {p q : β → Nat} {t : Tree α β} {op : β} {x : α} :
    append p t op x = append q t op x ↔ DescendsAlike p q t op := by
  induction t with
  | leaf a => exact ⟨fun _ => trivial, fun _ => rfl⟩
  | node l o r _ ih =>
    unfold append DescendsAlike
    by_cases hp : p op < p o
    · by_cases hq : q op < q o
      · simp [hp, hq, ih]
      · have hne := append_ne_leaf p r op x x
        simp [hp, hq, hne]
    · by_cases hq : q op < q o
      · have hne := (append_ne_leaf q r op x x).symm
        simp [hp, hq, hne]
      · simp [hp, hq]

/-- Both tables agree on every operator of a sequence. -/
def Agree (p q : β → Nat) : Tree α β → List (β × α) → Prop
  | _, [] => True
  | t, (op, x) :: s => DescendsAlike p q t op ∧ Agree p q (append p t op x) s

/-- Two precedences make one tree of a sequence exactly if they append alike at each operand. -/
theorem resolve_eq_iff {p q : β → Nat} {t : Tree α β} {s : List (β × α)} :
    resolve p t s = resolve q t s ↔ Agree p q t s := by
  induction s generalizing t with
  | nil => exact ⟨fun _ => trivial, fun _ => rfl⟩
  | cons z s ih =>
    obtain ⟨op, x⟩ := z
    rw [resolve_cons, resolve_cons, Agree, ← ih]
    constructor
    · intro h
      have happend := resolve_cancel h
      exact ⟨append_eq_iff.mp happend, by rwa [← happend] at h⟩
    · rintro ⟨hd, h⟩
      rw [h, append_eq_iff.mpr hd]

end Agreement

/-! ## Trees with the same leaves -/

section Leaves

def treeLeaves : Tree α β → List α
  | .leaf a => [a]
  | .node l _ r => treeLeaves l ++ treeLeaves r

theorem treeLeaves_append (level : β → Nat) (t : Tree α β) (op : β) (x : α) :
    treeLeaves (append level t op x) = treeLeaves t ++ [x] := by
  induction t with
  | leaf a => rfl
  | node l o r _ ih =>
    unfold append
    split
    · simp [treeLeaves, ih]
    · rfl

theorem treeLeaves_resolve (level : β → Nat) (t : Tree α β) (s : List (β × α)) :
    treeLeaves (resolve level t s) = treeLeaves t ++ s.map Prod.snd := by
  induction s generalizing t with
  | nil => simp
  | cons p s ih =>
    rw [resolve_cons, ih, treeLeaves_append]
    simp

theorem treeLeaves_ne_nil (t : Tree α β) : treeLeaves t ≠ [] := by
  induction t with
  | leaf a => simp [treeLeaves]
  | node l o r ihl _ => simp [treeLeaves, ihl]

/-- A measure that adds up over the operands is the sum over the leaves. -/
theorem sum_fold {join : α → β → α → α} {f : α → Nat} (h : ∀ a b c, f (join a b c) = f a + f c)
    (t : Tree α β) : f (fold join t) = ((treeLeaves t).map f).sum := by
  induction t with
  | leaf a => simp [fold, treeLeaves]
  | node l o r ihl ihr => simp [fold, treeLeaves, h, ihl, ihr]

/-- A test that both operands must pass is a test of the leaves. -/
theorem all_fold {join : α → β → α → α} {q : α → Bool}
    (h : ∀ a b c, q (join a b c) = (q a && q c)) (t : Tree α β) :
    q (fold join t) = (treeLeaves t).all q := by
  induction t with
  | leaf a => simp [fold, treeLeaves]
  | node l o r ihl ihr => simp [fold, treeLeaves, h, ihl, ihr]

def mapLeaves (f : α → γ) : Tree α β → Tree γ β
  | .leaf a => .leaf (f a)
  | .node l op r => .node (mapLeaves f l) op (mapLeaves f r)

/-- Appending and mapping the leaves go in either order. -/
theorem mapLeaves_append (f : α → γ) (level : β → Nat) (t : Tree α β) (op : β) (x : α) :
    mapLeaves f (append level t op x) = append level (mapLeaves f t) op (f x) := by
  induction t with
  | leaf a => rfl
  | node l o r _ ih =>
    by_cases h : level op < level o
    · simp [append, mapLeaves, h, ih]
    · simp [append, mapLeaves, h]

theorem mapLeaves_resolve (f : α → γ) (level : β → Nat) (t : Tree α β) (s : List (β × α)) :
    mapLeaves f (resolve level t s) =
      resolve level (mapLeaves f t) (s.map fun p => (p.1, f p.2)) := by
  induction s generalizing t with
  | nil => rfl
  | cons p s ih => rw [resolve_cons, ih, mapLeaves_append, List.map_cons, resolve_cons]

theorem fold_mapLeaves {join : α → β → α → α} {join' : γ → β → γ → γ} {f : α → γ}
    (h : ∀ a b c, f (join a b c) = join' (f a) b (f c)) (t : Tree α β) :
    f (fold join t) = fold join' (mapLeaves f t) := by
  induction t with
  | leaf a => rfl
  | node l o r ihl ihr => rw [fold, h, ihl, ihr, mapLeaves, fold]

theorem eq_nil_of_sum {u : List Nat} (hu : ∀ n ∈ u, 0 < n) (h : u.sum = 0) : u = [] := by
  cases u with
  | nil => rfl
  | cons n u =>
    have hn := hu n List.mem_cons_self
    simp only [List.sum_cons] at h
    omega

/-- Two prefixes of one list of positive numbers with one sum are the same. -/
theorem prefix_eq_of_sum {u v u' v' : List Nat} (hpos : ∀ n ∈ u ++ v, 0 < n)
    (h : u ++ v = u' ++ v') (hsum : u.sum = u'.sum) : u = u' ∧ v = v' := by
  have hpos' : ∀ n ∈ u' ++ v', 0 < n := h ▸ hpos
  rcases List.append_eq_append_iff.mp h with ⟨w, rfl, rfl⟩ | ⟨w, rfl, rfl⟩
  · have hw : w = [] := eq_nil_of_sum (fun n hn => hpos n (by simp [hn]))
      (by simp only [List.sum_append] at hsum; omega)
    simp [hw]
  · have hw : w = [] := eq_nil_of_sum (fun n hn => hpos' n (by simp [hn]))
      (by simp only [List.sum_append] at hsum; omega)
    simp [hw]

/-- Values that have operands as parts, with a size that counts them. -/
structure Sized (join : α → β → α → α) where
  size : α → Nat
  size_pos : ∀ a, 0 < size a
  size_join : ∀ a b c, size (join a b c) = size a + size c
  join_inj : ∀ {a b c a' b' c'}, join a b c = join a' b' c' → a = a' ∧ b = b' ∧ c = c'

namespace Sized

variable {join : α → β → α → α} (S : Sized join)

/-- A tree is known from its value and the sizes of its leaves. -/
theorem fold_inj {t t' : Tree α β} (hsize : (treeLeaves t).map S.size = (treeLeaves t').map S.size)
    (h : fold join t = fold join t') : t = t' := by
  induction t generalizing t' with
  | leaf a =>
    cases t' with
    | leaf a' => rw [show a = a' from h]
    | node l' o' r' =>
      have hlength := congrArg List.length hsize
      have hl := List.length_pos_iff.mpr (treeLeaves_ne_nil l')
      have hr := List.length_pos_iff.mpr (treeLeaves_ne_nil r')
      simp [treeLeaves] at hlength
      omega
  | node l o r ihl ihr =>
    cases t' with
    | leaf a' =>
      have hlength := congrArg List.length hsize
      have hl := List.length_pos_iff.mpr (treeLeaves_ne_nil l)
      have hr := List.length_pos_iff.mpr (treeLeaves_ne_nil r)
      simp [treeLeaves] at hlength
      omega
    | node l' o' r' =>
      obtain ⟨hleft, rfl, hright⟩ := S.join_inj h
      simp only [treeLeaves, List.map_append] at hsize
      have hsum : ((treeLeaves l).map S.size).sum = ((treeLeaves l').map S.size).sum := by
        rw [← sum_fold S.size_join, ← sum_fold S.size_join, hleft]
      have hpos : ∀ n ∈ (treeLeaves l).map S.size ++ (treeLeaves r).map S.size, 0 < n := by
        intro n hn
        simp only [List.mem_append, List.mem_map] at hn
        obtain ⟨a, _, rfl⟩ | ⟨a, _, rfl⟩ := hn
        · exact S.size_pos a
        · exact S.size_pos a
      obtain ⟨hl, hr⟩ := prefix_eq_of_sum hpos hsize hsum
      rw [ihl hl hleft, ihr hr hright]

end Sized

end Leaves

/-! ## Which operator takes a marked operand -/

section Taken

variable (level : β → Nat) (good : β → Bool)

def isMarked : Tree Bool β → Bool
  | .leaf m => m
  | .node _ _ _ => false

@[simp] theorem isMarked_leaf (m : Bool) : isMarked (.leaf m : Tree Bool β) = m := rfl

@[simp] theorem isMarked_node (l : Tree Bool β) (o : β) (r : Tree Bool β) :
    isMarked (.node l o r) = false := rfl

/-- Every marked leaf is an operand of a good operator. -/
def wellTaken : Tree Bool β → Bool
  | .leaf _ => true
  | .node l o r => (!isMarked l || good o) && (!isMarked r || good o) && wellTaken l && wellTaken r

/-- The operator that takes an operand: of those on both sides the one that binds tighter. -/
def taking : Option β → β → β
  | none, op => op
  | some o, op => if level op < level o then op else o

/-- The same on the sequence, `o` standing before the operand marked by `m`. -/
def takenFrom (o : Option β) (m : Bool) : List (β × Bool) → Bool
  | [] => !m || o.all good
  | (op, m') :: s => (!m || good (taking level o op)) && takenFrom (some op) m' s

variable {level good}

theorem isMarked_append (t : Tree Bool β) (op : β) (m : Bool) :
    isMarked (append level t op m) = false := by
  cases t with
  | leaf a => rfl
  | node l o r =>
    unfold append
    split <;> rfl

/-- The last operand belongs to the operator before it. -/
theorem wellTaken_append (t : Tree Bool β) (o : β) (m : Bool) :
    wellTaken good (append level t o m) =
      (wellTaken good (append level t o false) && (!m || good o)) := by
  induction t with
  | leaf a => cases m <;> simp [append, wellTaken]
  | node l o' r _ ih =>
    unfold append
    split
    · simp [wellTaken, isMarked_append, ih, Bool.and_assoc]
    · cases m <;> simp [wellTaken, Bool.and_comm]

/-- A further operator takes the last operand over when it binds tighter. -/
theorem wellTaken_append_append (t : Tree Bool β) (o op : β) (m : Bool) :
    wellTaken good (append level (append level t o m) op false) =
      (wellTaken good (append level t o false) && (!m || good (taking level (some o) op))) := by
  induction t with
  | leaf a =>
    by_cases hop : level op < level o
    · cases m <;> simp [append, wellTaken, taking, hop]
    · cases m <;> simp [append, wellTaken, taking, hop]
  | node l o' r _ ih =>
    by_cases ho : level o < level o'
    · have hinner : append level (.node l o' r) o m = .node l o' (append level r o m) := if_pos ho
      have hfalse : append level (.node l o' r) o false = .node l o' (append level r o false) :=
        if_pos ho
      rw [hinner, hfalse]
      by_cases hop : level op < level o'
      · rw [append, if_pos hop]
        simp [wellTaken, isMarked_append, ih, Bool.and_assoc]
      · -- the operator is looser than the one above the operand, which keeps it
        have hkeep : taking level (some o) op = o := if_neg (by omega)
        rw [append, if_neg hop, hkeep]
        simp [wellTaken, isMarked_append, wellTaken_append r o m, Bool.and_assoc]
    · have houter : ∀ m, append level (.node l o' r) o m = .node (.node l o' r) o (.leaf m) :=
        fun m => if_neg ho
      rw [houter m, houter false]
      by_cases hop : level op < level o
      · cases m <;> simp [append, wellTaken, taking, hop]
      · cases m <;> simp [append, wellTaken, taking, hop, Bool.and_comm]

/-- Along a sequence the tree is well taken exactly if each operand is. -/
theorem wellTaken_resolve (t : Tree Bool β) (o : β) (m : Bool) (s : List (β × Bool)) :
    wellTaken good (resolve level (append level t o m) s) =
      (wellTaken good (append level t o false) && takenFrom level good (some o) m s) := by
  induction s generalizing t o m with
  | nil => exact wellTaken_append t o m
  | cons p s ih =>
    obtain ⟨op, m'⟩ := p
    rw [resolve_cons, ih, wellTaken_append_append, takenFrom, Bool.and_assoc]

theorem wellTaken_sequence (m : Bool) (s : List (β × Bool)) :
    wellTaken good (resolve level (.leaf m) s) = takenFrom level good none m s := by
  cases s with
  | nil => simp [wellTaken, takenFrom]
  | cons p s =>
    obtain ⟨op, m'⟩ := p
    have hfirst : wellTaken good (append level (.leaf m) op false) = (!m || good op) := by
      simp [append, wellTaken]
    rw [resolve_cons, wellTaken_resolve, hfirst]
    rfl

end Taken

end Infix
