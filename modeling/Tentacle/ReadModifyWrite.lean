import Mathlib.Data.List.Perm.Basic
import Tentacle.Runs

/-!
# Requests that read a store and write it later

A request looks at a part of a store and makes a change of what it saw, or none. Between the
two steps other requests may take theirs. A schedule in which every request still finds, when
it writes, what it has read has the effect of the same requests one after another.
-/

namespace ReadModifyWrite

/-- What a request reads of the store, and the change that it makes of that. -/
structure Access (σ R V : Type) where
  read : R → σ → V
  change : R → V → Option (σ → σ)

variable {σ R V : Type} (access : Access σ R V)

/-- The request in one step. -/
def serve (store : σ) (r : R) : σ :=
  match access.change r (access.read r store) with
  | none => store
  | some f => f store

/-- The store, and the requests that have read and not yet written. -/
structure State (σ R V : Type) where
  store : σ
  pending : List (R × V) := []

inductive Step (R : Type) where
  | read (r : R)
  | write (i : Nat)

/-- A request that has nothing to write ends when it has read. -/
def step (s : State σ R V) : Step R → Option (State σ R V)
  | .read r =>
    match access.change r (access.read r s.store) with
    | none => some s
    | some _ => some { s with pending := s.pending ++ [(r, access.read r s.store)] }
  | .write i =>
    match s.pending[i]? with
    | none => none
    | some (r, v) =>
      (access.change r v).map fun f => { store := f s.store, pending := s.pending.eraseIdx i }

def requests (schedule : List (Step R)) : List R :=
  schedule.filterMap fun
    | .read r => some r
    | .write _ => none

/-- Two requests have two orders. -/
theorem eq_or_eq_of_perm_pair {l : List R} {a c : R} (h : l.Perm [a, c]) :
    l = [a, c] ∨ l = [c, a] := by
  obtain ⟨x, y, rfl⟩ := List.length_eq_two.mp h.length_eq
  have hx : x = a ∨ x = c := by simpa using h.mem_iff.mp (List.mem_cons_self (a := x) (l := [y]))
  obtain rfl | rfl := hx
  · left
    rw [List.perm_singleton.mp ((List.perm_cons x).mp h)]
  · right
    have hswap : [x, y].Perm [x, a] := h.trans (.swap x a [])
    rw [List.perm_singleton.mp ((List.perm_cons x).mp hswap)]

/-- A request that writes finds what it has read. -/
def Fresh (s : State σ R V) : Step R → Prop
  | .read _ => True
  | .write i => ∀ r v, s.pending[i]? = some (r, v) → access.read r s.store = v

/-- What a step can do: end a request that has nothing to write, read, or write. -/
theorem step_cases {s t : State σ R V} {a : Step R} (h : step access s a = some t) :
    (∃ r, a = .read r ∧ access.change r (access.read r s.store) = none ∧ t = s) ∨
    (∃ r, a = .read r ∧ (access.change r (access.read r s.store)).isSome ∧
      t = { s with pending := s.pending ++ [(r, access.read r s.store)] }) ∨
    ∃ i r v f, a = .write i ∧ s.pending[i]? = some (r, v) ∧ access.change r v = some f ∧
      t = { store := f s.store, pending := s.pending.eraseIdx i } := by
  cases a with
  | read r =>
    rw [step] at h
    split at h
    next hnone => exact .inl ⟨r, rfl, hnone, (Option.some.inj h).symm⟩
    next f hsome => exact .inr (.inl ⟨r, rfl, by simp [hsome], (Option.some.inj h).symm⟩)
  | write i =>
    rw [step] at h
    split at h
    next => cases h
    next r v hpending =>
      obtain ⟨f, hf, rfl⟩ := Option.map_eq_some_iff.mp h
      exact .inr (.inr ⟨i, r, v, f, rfl, hpending, hf, rfl⟩)

theorem perm_cons_eraseIdx {α : Type} {l : List α} {i : Nat} {a : α} (h : l[i]? = some a) :
    l.Perm (a :: l.eraseIdx i) := by
  obtain ⟨hi, rfl⟩ := List.getElem?_eq_some_iff.mp h
  exact (List.getElem_cons_eraseIdx_perm hi).symm

/-- The requests of a fresh schedule in the order in which they took effect, with those that
still have to write. -/
theorem run_serve {s t : State σ R V} {schedule : List (Step R)}
    (hrun : Runs.run (step access) s schedule = some t)
    (hfresh : Runs.Meets (step access) (Fresh access) s schedule) :
    ∃ order, (order ++ t.pending.map Prod.fst).Perm
        (s.pending.map Prod.fst ++ requests schedule) ∧
      t.store = order.foldl (serve access) s.store := by
  induction schedule generalizing s with
  | nil =>
    cases hrun
    exact ⟨[], by simp [requests], rfl⟩
  | cons a schedule ih =>
    obtain ⟨hstep, hrest⟩ := hfresh
    obtain ⟨u, hu, hrun⟩ := Option.bind_eq_some_iff.mp hrun
    obtain ⟨order, hperm, hstore⟩ := ih hrun (hrest u hu)
    obtain ⟨r, rfl, hnone, rfl⟩ | ⟨r, rfl, -, rfl⟩ | ⟨i, r, v, f, rfl, hpending, hf, rfl⟩ :=
      step_cases access hu
    · refine ⟨r :: order, ?_, ?_⟩
      · exact (hperm.cons r).trans List.perm_middle.symm
      · rw [List.foldl_cons, serve, hnone]
        exact hstore
    · refine ⟨order, ?_, hstore⟩
      rw [List.map_append, List.append_assoc] at hperm
      exact hperm
    · refine ⟨r :: order, ?_, ?_⟩
      · have herase := (perm_cons_eraseIdx hpending).map Prod.fst
        exact (hperm.cons r).trans (herase.symm.append_right (requests schedule))
      · rw [List.foldl_cons, serve, hstep r v hpending, hf]
        exact hstore

/-- A schedule whose writes are all fresh and that leaves no request pending is a sequential
run of its requests. -/
theorem run_serial {store : σ} {t : State σ R V} {schedule : List (Step R)}
    (hrun : Runs.run (step access) { store := store } schedule = some t)
    (hfresh : Runs.Meets (step access) (Fresh access) { store := store } schedule)
    (hdone : t.pending = []) :
    ∃ order : List R, order.Perm (requests schedule) ∧ t.store = order.foldl (serve access) store := by
  obtain ⟨order, hperm, hstore⟩ := run_serve access hrun hfresh
  rw [hdone, List.map_nil, List.append_nil] at hperm
  exact ⟨order, hperm, hstore⟩

/-- The store has a property, and all that is pending was read from such a store. -/
def Holds (P : σ → Prop) (Seen : R → V → Prop) (s : State σ R V) : Prop :=
  P s.store ∧ ∀ e ∈ s.pending, Seen e.1 e.2

/-- What every change keeps, made of something read from a store that has it, holds of the
store after every run, whatever the schedule. -/
theorem run_keeps {P : σ → Prop} {Seen : R → V → Prop} {ok : State σ R V → Step R → Prop}
    (hread : ∀ s r, P s.store → ok s (.read r) → Seen r (access.read r s.store))
    (hwrite : ∀ store r v f, P store → Seen r v → access.change r v = some f → P (f store))
    {s t : State σ R V} {schedule : List (Step R)} (hs : P s.store)
    (hpending : ∀ e ∈ s.pending, Seen e.1 e.2) (hok : Runs.Meets (step access) ok s schedule)
    (hrun : Runs.run (step access) s schedule = some t) : P t.store := by
  have hinv : Holds P Seen t := by
    refine Runs.run_invariant ?_ (⟨hs, hpending⟩ : Holds P Seen s) hok hrun
    rintro s a u ⟨hs, hpending⟩ hok hu
    obtain ⟨r, rfl, -, rfl⟩ | ⟨r, rfl, -, rfl⟩ | ⟨i, r, v, f, rfl, hi, hf, rfl⟩ :=
      step_cases access hu
    · exact ⟨hs, hpending⟩
    · refine ⟨hs, ?_⟩
      intro e he
      obtain he | he := List.mem_append.mp he
      · exact hpending e he
      · cases List.mem_singleton.mp he
        exact hread s r hs hok
    · refine ⟨hwrite s.store r v f hs (hpending _ (List.mem_of_getElem? hi)) hf, ?_⟩
      intro e he
      exact hpending e (List.mem_of_mem_eraseIdx he)
  exact hinv.1

end ReadModifyWrite
