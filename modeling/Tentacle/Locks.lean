import Mathlib.Data.List.Basic

/-!
# Mutexes of one goroutine

A computation of a goroutine carries the memory and the mutexes that the goroutine holds. A
mutex is not reentrant: to lock one that is held already is to wait for ever. Here that is an
error which names the mutex, so that a computation which ends without one has never locked a
mutex twice. What a goroutine has written stays written when it blocks, so a blocked
computation still has a memory.
-/

namespace Locks

variable {σ L α β : Type}

/-- The result, or the mutex that is locked again, with the memory and the mutexes held. -/
def Goroutine (σ L α : Type) := σ × List L → Except L α × (σ × List L)

def Goroutine.bind (x : Goroutine σ L α) (f : α → Goroutine σ L β) : Goroutine σ L β := fun st =>
  match x st with
  | (.ok a, st') => f a st'
  | (.error m, st') => (.error m, st')

instance : Monad (Goroutine σ L) where
  pure a := fun st => (.ok a, st)
  bind := Goroutine.bind

def memory : Goroutine σ L σ := fun st => (.ok st.1, st)

def write (f : σ → σ) : Goroutine σ L Unit := fun st => (.ok (), f st.1, st.2)

variable {m : L} {held : List L} {s t u : σ}

theorem bind_apply (x : Goroutine σ L α) (f : α → Goroutine σ L β) (st : σ × List L) :
    (x >>= f) st = match x st with
      | (.ok a, st') => f a st'
      | (.error m, st') => (.error m, st') := rfl

/-! ## Computations that end and computations that block -/

/-- The computation ends with the memory `t` and holds what it held. -/
def Returns (x : Goroutine σ L Unit) (held : List L) (s t : σ) : Prop :=
  x (s, held) = (.ok (), t, held)

/-- The computation locks a mutex that it holds. -/
def Blocks (x : Goroutine σ L α) (held : List L) (s : σ) : Prop :=
  ∃ m, (x (s, held)).1 = .error m

theorem Returns.not_blocks {x : Goroutine σ L Unit} (h : Returns x held s t) :
    ¬Blocks x held s := by
  rintro ⟨m, hm⟩
  rw [h] at hm
  cases hm

theorem Returns.unique {x : Goroutine σ L Unit} (h : Returns x held s t)
    (h' : Returns x held s u) : t = u :=
  congrArg (·.2.1) (h.symm.trans h')

theorem returns_pure : Returns (pure () : Goroutine σ L Unit) held s s := rfl

theorem returns_write (f : σ → σ) : Returns (write f : Goroutine σ L Unit) held s (f s) := rfl

theorem returns_memory_bind {f : σ → Goroutine σ L Unit} (h : Returns (f s) held s t) :
    Returns (memory >>= f) held s t := h

theorem blocks_memory_bind {f : σ → Goroutine σ L α} (h : Blocks (f s) held s) :
    Blocks (memory >>= f) held s := h

/-- What follows a computation that ends runs from the memory it has left. -/
theorem Returns.bind_apply {x : Goroutine σ L Unit} (h : Returns x held s t)
    (f : Unit → Goroutine σ L β) : (x >>= f) (s, held) = f () (t, held) := by
  rw [Locks.bind_apply, h]

theorem Returns.bind {x : Goroutine σ L Unit} {f : Unit → Goroutine σ L Unit}
    (hx : Returns x held s t) (hf : Returns (f ()) held t u) : Returns (x >>= f) held s u := by
  rw [Returns, hx.bind_apply]
  exact hf

theorem Returns.bind_blocks {x : Goroutine σ L Unit} {f : Unit → Goroutine σ L β}
    (hx : Returns x held s t) (hf : Blocks (f ()) held t) : Blocks (x >>= f) held s := by
  rw [Blocks, hx.bind_apply]
  exact hf

/-- What comes after a step that blocks is not reached. -/
theorem Blocks.bind {x : Goroutine σ L α} (h : Blocks x held s) (f : α → Goroutine σ L β) :
    Blocks (x >>= f) held s := by
  obtain ⟨m, hm⟩ := h
  refine ⟨m, ?_⟩
  rw [bind_apply]
  rcases hrun : x (s, held) with ⟨m' | a, st⟩
  · rw [hrun] at hm
    cases hm
    rfl
  · rw [hrun] at hm
    cases hm

theorem returns_forM {f : β → Goroutine σ L Unit} {l : List β}
    (h : ∀ i ∈ l, Returns (f i) held s s) : Returns (l.forM f) held s s := by
  induction l with
  | nil => exact returns_pure
  | cons i l ih => exact (h i (by simp)).bind (ih fun j hj => h j (by simp [hj]))

/-- A loop whose rounds change nothing and go on, or block, each by its item. -/
theorem blocks_forM {f : β → Goroutine σ L Unit} {P : β → Prop} {l : List β}
    (hreturns : ∀ i ∈ l, ¬P i → Returns (f i) held s s)
    (hblocks : ∀ i ∈ l, P i → Blocks (f i) held s) (h : ∃ i ∈ l, P i) :
    Blocks (l.forM f) held s := by
  induction l with
  | nil =>
    obtain ⟨i, hi, -⟩ := h
    cases hi
  | cons j l ih =>
    change Blocks (f j >>= fun _ => l.forM f) held s
    by_cases hj : P j
    · exact (hblocks j (by simp) hj).bind _
    · obtain ⟨i, hi, hP⟩ := h
      have hl : i ∈ l := by
        obtain rfl | hi := List.mem_cons.mp hi
        · exact absurd hP hj
        · exact hi
      exact (hreturns j (by simp) hj).bind_blocks
        (ih (fun k hk => hreturns k (by simp [hk])) (fun k hk => hblocks k (by simp [hk]))
          ⟨i, hl, hP⟩)

/-! ## What is left in the memory -/

/-- The memory when the computation has ended or has blocked. -/
def left (x : Goroutine σ L α) (s : σ) (held : List L) : σ := (x (s, held)).2.1

/-- The computation leaves the memory so, and where it ends it holds what it held. -/
def Leaves (P : σ → Prop) (held : List L) (x : Goroutine σ L α) (s : σ) : Prop :=
  P (left x s held) ∧ ∀ a, (x (s, held)).1 = .ok a → (x (s, held)).2.2 = held

variable {P : σ → Prop}

theorem leaves_pure (a : α) (h : P s) : Leaves P held (pure a) s := ⟨h, fun _ _ => rfl⟩

theorem leaves_write {f : σ → σ} (h : P (f s)) : Leaves P held (write f) s := ⟨h, fun _ _ => rfl⟩

theorem leaves_memory_bind {f : σ → Goroutine σ L α} (h : Leaves P held (f s) s) :
    Leaves P held (memory >>= f) s := h

/-- One step after the other leaves what both do. -/
theorem Leaves.bind {x : Goroutine σ L α} {f : α → Goroutine σ L β} (hx : Leaves P held x s)
    (hf : ∀ a t, P t → Leaves P held (f a) t) : Leaves P held (x >>= f) s := by
  obtain ⟨hP, hheld⟩ := hx
  rw [Leaves, left, bind_apply]
  rw [left] at hP
  match hrun : x (s, held) with
  | (.ok a, t, held') =>
    rw [hrun] at hP hheld
    obtain rfl : held' = held := hheld a rfl
    exact hf a t hP
  | (.error m, t, held') =>
    rw [hrun] at hP
    exact ⟨hP, fun _ h => by cases h⟩

/-- A loop keeps what each of its rounds keeps. -/
theorem leaves_forM {f : β → Goroutine σ L Unit} {l : List β}
    (hf : ∀ i ∈ l, ∀ t, P t → Leaves P held (f i) t) (h : P s) : Leaves P held (l.forM f) s := by
  induction l generalizing s with
  | nil => exact leaves_pure _ h
  | cons i l ih =>
    refine (hf i (by simp) s h).bind fun _ t ht => ?_
    exact ih (fun j hj => hf j (by simp [hj])) ht

/-! ## Bodies between `Lock` and `Unlock` -/

section Mutexes

variable [DecidableEq L]

def withLock (m : L) (body : Goroutine σ L α) : Goroutine σ L α := fun (s, held) =>
  if m ∈ held then (.error m, s, held)
  else
    match body (s, m :: held) with
    | (.ok a, t, held') => (.ok a, t, held'.erase m)
    | (.error m', st) => (.error m', st)

theorem Returns.withLock {body : Goroutine σ L Unit} (hm : m ∉ held)
    (h : Returns body (m :: held) s t) : Returns (withLock m body) held s t := by
  rw [Returns, Locks.withLock, if_neg hm, h]
  simp

theorem blocks_withLock_of_mem (body : Goroutine σ L α) (hm : m ∈ held) :
    Blocks (withLock m body) held s :=
  ⟨m, by rw [withLock, if_pos hm]⟩

/-- A body that blocks holds its lock for ever. -/
theorem Blocks.withLock {body : Goroutine σ L α} (h : Blocks body (m :: held) s) :
    Blocks (withLock m body) held s := by
  by_cases hm : m ∈ held
  · exact blocks_withLock_of_mem body hm
  · obtain ⟨m', hm'⟩ := h
    refine ⟨m', ?_⟩
    rw [Locks.withLock, if_neg hm]
    rcases hrun : body (s, m :: held) with ⟨m'' | a, st⟩
    · rw [hrun] at hm'
      cases hm'
      rfl
    · rw [hrun] at hm'
      cases hm'

theorem leaves_withLock_of_mem (body : Goroutine σ L α) (hm : m ∈ held) (h : P s) :
    Leaves P held (withLock m body) s := by
  rw [Leaves, left, withLock, if_pos hm]
  exact ⟨h, fun _ h => by cases h⟩

/-- A lock that is free is given back by a body that does not block. -/
theorem Leaves.withLock {body : Goroutine σ L α} (hm : m ∉ held)
    (h : Leaves P (m :: held) body s) : Leaves P held (withLock m body) s := by
  obtain ⟨hP, hheld⟩ := h
  rw [Leaves, left, Locks.withLock, if_neg hm]
  rw [left] at hP
  match hrun : body (s, m :: held) with
  | (.ok a, t, held') =>
    rw [hrun] at hP hheld
    obtain rfl : held' = m :: held := hheld a rfl
    exact ⟨hP, fun _ _ => List.erase_cons_head m held⟩
  | (.error m', t, held') =>
    rw [hrun] at hP
    exact ⟨hP, fun _ h => by cases h⟩

end Mutexes

end Locks
