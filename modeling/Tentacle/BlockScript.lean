import Mathlib.Data.List.Basic

/-!
# Scripts of nested blocks

Statements with bodies, over any type of expressions, and their execution on a state. An error ends
the execution with the state it has then. There is no loop but over the numbers of a range, so every
execution ends.
-/

namespace BlockScript

/-! ## Actions -/

/-- An action on a state, which it also leaves behind when it fails. -/
def Action (σ ε α : Type) : Type := σ → Except ε α × σ

variable {σ ε α β : Type}

namespace Action

def fail (e : ε) : Action σ ε α := fun s => (.error e, s)

def andThen (r : Except ε α × σ) (f : α → Action σ ε β) : Except ε β × σ :=
  match r with
  | (.ok a, s) => f a s
  | (.error e, s) => (.error e, s)

instance : Monad (Action σ ε) where
  pure a s := (.ok a, s)
  bind x f s := andThen (x s) f

@[simp] theorem pure_apply (a : α) (s : σ) : (pure a : Action σ ε α) s = (.ok a, s) := rfl

@[simp] theorem bind_apply (x : Action σ ε α) (f : α → Action σ ε β) (s : σ) :
    (x >>= f) s = andThen (x s) f := rfl

@[simp] theorem andThen_ok (a : α) (s : σ) (f : α → Action σ ε β) :
    andThen (.ok a, s) f = f a s := rfl

@[simp] theorem andThen_error (e : ε) (s : σ) (f : α → Action σ ε β) :
    andThen (.error e, s) f = (.error e, s) := rfl

@[simp] theorem fail_apply (e : ε) (s : σ) : (fail e : Action σ ε α) s = (.error e, s) := rfl

/-- The action does not leave the states of a set. -/
def Keeps (P : σ → Prop) (x : Action σ ε α) : Prop := ∀ s, P s → P (x s).2

variable {P : σ → Prop}

theorem keeps_pure (a : α) : Keeps P (pure a : Action σ ε α) := fun _ h => h

/-- One action after the other stays where both do. -/
theorem Keeps.bind {x : Action σ ε α} {f : α → Action σ ε β} (hx : Keeps P x)
    (hf : ∀ a, Keeps P (f a)) : Keeps P (x >>= f) := by
  intro s hs
  have hleft := hx s hs
  rw [bind_apply]
  cases hr : x s with
  | mk r s' =>
    rw [hr] at hleft
    cases r with
    | ok a => exact hf a s' hleft
    | error e => exact hleft

end Action

/-! ## Statements -/

mutual

inductive Stmt (E V : Type) where
  | effect (e : E)
  | if_ (clauses : List (Clause E V)) (elseBody : List (Stmt E V))
  | forRange (var : V) (args : List E) (body : List (Stmt E V))
  | break_
  | return_
  | pass

inductive Clause (E V : Type) where
  | mk (test : E) (body : List (Stmt E V))

end

/-- How a statement ends. -/
inductive Flow where
  | next | break_ | return_
  deriving DecidableEq

/-- What expressions do. -/
structure Machine (E V σ ε : Type) where
  effect : E → Action σ ε Unit
  test : E → Action σ ε Bool
  /-- The numbers for a loop variable. -/
  range : V → List E → Action σ ε (List Int)
  bind : V → Int → σ → σ

variable {E V : Type}

/-- A body for one value after the other. -/
def iterate (run : Int → Action σ ε Flow) : List Int → Action σ ε Flow
  | [] => pure .next
  | n :: ns => do
    let flow ← run n
    match flow with
    | .next => iterate run ns
    | .break_ => pure .next
    | .return_ => pure .return_

section Exec

variable (M : Machine E V σ ε)

mutual

def exec : Stmt E V → Action σ ε Flow
  | .effect e => do
    M.effect e
    pure .next
  | .if_ clauses elseBody => execClauses clauses (execBlock elseBody)
  | .forRange var args body => do
    let values ← M.range var args
    iterate (fun n s => execBlock body (M.bind var n s)) values
  | .break_ => pure .break_
  | .return_ => pure .return_
  | .pass => pure .next

/-- The body of the first clause that holds. -/
def execClauses : List (Clause E V) → Action σ ε Flow → Action σ ε Flow
  | [], otherwise => otherwise
  | .mk test body :: clauses, otherwise => do
    let b ← M.test test
    if b then execBlock body else execClauses clauses otherwise

def execBlock : List (Stmt E V) → Action σ ε Flow
  | [] => pure .next
  | s :: body => do
    let flow ← exec s
    match flow with
    | .next => execBlock body
    | flow => pure flow

end

end Exec

/-! ## Invariants -/

/-- A loop stays where each run of its body does. -/
theorem keeps_iterate {P : σ → Prop} {run : Int → Action σ ε Flow}
    (h : ∀ n, Action.Keeps P (run n)) (ns : List Int) : Action.Keeps P (iterate run ns) := by
  induction ns with
  | nil => exact Action.keeps_pure _
  | cons n ns ih =>
    refine (h n).bind ?_
    rintro ⟨⟩
    · exact ih
    · exact Action.keeps_pure _
    · exact Action.keeps_pure _

/-- The iterations of a loop that begin: the value, and the state in which it is at that value. -/
inductive Starts (run : Int → Action σ ε Flow) : List Int → σ → Int → σ → Prop where
  | first {n : Int} {ns : List Int} {s : σ} : Starts run (n :: ns) s n s
  | later {n m : Int} {ns : List Int} {s s' t : σ} (h : run n s = (.ok .next, s'))
      (hs : Starts run ns s' m t) : Starts run (n :: ns) s m t

/-- What each iteration keeps holds at the start of the next one. -/
theorem Starts.keeps {P : σ → Prop} {run : Int → Action σ ε Flow}
    (h : ∀ n, Action.Keeps P (run n)) {ns : List Int} {s t : σ} {m : Int}
    (hs : Starts run ns s m t) (hP : P s) : m ∈ ns ∧ P t := by
  induction hs with
  | first => exact ⟨List.mem_cons_self, hP⟩
  | @later n m ns s s' t hrun _ ih =>
    have hkept := h n s hP
    rw [hrun] at hkept
    exact ⟨List.mem_cons_of_mem _ (ih hkept).1, (ih hkept).2⟩

mutual

/-- The expressions of a statement and the variables of its loops keep a set of states. -/
def StmtKeeps (M : Machine E V σ ε) (P : σ → Prop) : Stmt E V → Prop
  | .effect e => Action.Keeps P (M.effect e)
  | .if_ clauses elseBody => ClausesKeep M P clauses ∧ BlockKeeps M P elseBody
  | .forRange var args body =>
    Action.Keeps P (M.range var args) ∧ (∀ n s, P s → P (M.bind var n s)) ∧ BlockKeeps M P body
  | _ => True

def ClausesKeep (M : Machine E V σ ε) (P : σ → Prop) : List (Clause E V) → Prop
  | [] => True
  | .mk test body :: clauses =>
    Action.Keeps P (M.test test) ∧ BlockKeeps M P body ∧ ClausesKeep M P clauses

def BlockKeeps (M : Machine E V σ ε) (P : σ → Prop) : List (Stmt E V) → Prop
  | [] => True
  | s :: body => StmtKeeps M P s ∧ BlockKeeps M P body

end

theorem blockKeeps_iff {M : Machine E V σ ε} {P : σ → Prop} (body : List (Stmt E V)) :
    BlockKeeps M P body ↔ ∀ s ∈ body, StmtKeeps M P s := by
  induction body with
  | nil => simp [BlockKeeps]
  | cons s body ih => simp [BlockKeeps, ih]

section Keeps

variable {M : Machine E V σ ε} {P : σ → Prop}

mutual

/-- A statement stays in a set that its effects, tests and bindings do not leave. -/
theorem keeps_exec : ∀ s : Stmt E V, StmtKeeps M P s → Action.Keeps P (exec M s)
  | .effect e, h => Action.Keeps.bind h fun _ => Action.keeps_pure _
  | .if_ clauses elseBody, h => keeps_execClauses clauses h.1 (keeps_execBlock elseBody h.2)
  | .forRange var args body, h => by
    refine Action.Keeps.bind h.1 fun values => keeps_iterate (fun n s hs => ?_) values
    exact keeps_execBlock body h.2.2 _ (h.2.1 n s hs)
  | .break_, _ => Action.keeps_pure _
  | .return_, _ => Action.keeps_pure _
  | .pass, _ => Action.keeps_pure _

theorem keeps_execClauses : ∀ (clauses : List (Clause E V)) {otherwise : Action σ ε Flow},
    ClausesKeep M P clauses → Action.Keeps P otherwise →
      Action.Keeps P (execClauses M clauses otherwise)
  | [], _, _, hotherwise => hotherwise
  | .mk test body :: clauses, otherwise, h, hotherwise => by
    refine Action.Keeps.bind h.1 ?_
    rintro ⟨⟩
    · exact keeps_execClauses clauses h.2.2 hotherwise
    · exact keeps_execBlock body h.2.1

theorem keeps_execBlock : ∀ body : List (Stmt E V), BlockKeeps M P body →
    Action.Keeps P (execBlock M body)
  | [], _ => Action.keeps_pure _
  | s :: body, h => by
    refine (keeps_exec s h.1).bind ?_
    rintro ⟨⟩
    · exact keeps_execBlock body h.2
    · exact Action.keeps_pure _
    · exact Action.keeps_pure _

end

end Keeps

/-- A block that comes first is executed first. -/
theorem execBlock_append (M : Machine E V σ ε) (first second : List (Stmt E V)) :
    execBlock M (first ++ second) = (do
      let flow ← execBlock M first
      match flow with
      | .next => execBlock M second
      | flow => pure flow) := by
  induction first with
  | nil => rfl
  | cons s first ih =>
    funext state
    simp only [List.cons_append, execBlock, Action.bind_apply]
    cases hr : exec M s state with
    | mk r state' =>
      cases r with
      | error e => rfl
      | ok flow =>
        cases flow with
        | next => exact congrFun ih state'
        | break_ => rfl
        | return_ => rfl

end BlockScript
