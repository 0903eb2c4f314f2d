import Mathlib.Data.List.Basic

/-!
# Finite runs of a partial step function

A system is a step function `σ → α → Option σ`: the action is performed in the
state, or it is not enabled there. A run performs a finite list of actions in
order. Interleavings are lists of actions, so a statement about every schedule
is a statement about every list.
-/

namespace Runs

variable {σ α : Type}

/-- Perform the actions in order; `none` as soon as one of them is not enabled. -/
def run (step : σ → α → Option σ) : σ → List α → Option σ
  | s, [] => some s
  | s, a :: as => (step s a).bind (fun t => run step t as)

/-- Every action of the run meets the condition in the state it is taken in. -/
def Meets (step : σ → α → Option σ) (ok : σ → α → Prop) : σ → List α → Prop
  | _, [] => True
  | s, a :: as => ok s a ∧ ∀ t ∈ step s a, Meets step ok t as

instance Meets.decidable (step : σ → α → Option σ) (ok : σ → α → Prop)
    [∀ s a, Decidable (ok s a)] : (s : σ) → (as : List α) → Decidable (Meets step ok s as)
  | _, [] => isTrue trivial
  | s, a :: as =>
    match h : step s a with
    | none => decidable_of_iff (ok s a) (by simp [Meets, h])
    | some t =>
      have := Meets.decidable step ok t as
      decidable_of_iff (ok s a ∧ Meets step ok t as) (by simp [Meets, h])

/-- Actions that each preserve the invariant under the condition preserve it
along every run that meets the condition, whatever the schedule. -/
theorem run_invariant {step : σ → α → Option σ} {ok : σ → α → Prop} {Inv : σ → Prop}
    (hstep : ∀ s a t, Inv s → ok s a → step s a = some t → Inv t)
    {s t : σ} {as : List α} (hs : Inv s) (hok : Meets step ok s as)
    (hrun : run step s as = some t) : Inv t := by
  induction as generalizing s with
  | nil =>
    cases hrun
    exact hs
  | cons a as ih =>
    obtain ⟨ha, hrest⟩ := hok
    obtain ⟨u, hu, hrun⟩ := Option.bind_eq_some_iff.mp hrun
    exact ih (hstep s a u hs ha hu) (hrest u hu) hrun

theorem Meets.and {step : σ → α → Option σ} {ok ok' : σ → α → Prop} {s : σ} {as : List α}
    (h : Meets step ok s as) (h' : Meets step ok' s as) :
    Meets step (fun s a => ok s a ∧ ok' s a) s as := by
  induction as generalizing s with
  | nil => trivial
  | cons a as ih => exact ⟨⟨h.1, h'.1⟩, fun t ht => ih (h.2 t ht) (h'.2 t ht)⟩

/-- A condition may be replaced by one that follows from it along the run. -/
theorem Meets.imp {step : σ → α → Option σ} {ok ok' : σ → α → Prop} {Inv : σ → Prop}
    (hstep : ∀ s a t, Inv s → ok s a → step s a = some t → Inv t)
    (himp : ∀ s a t, Inv s → ok s a → step s a = some t → ok' s a)
    {s t : σ} {as : List α} (hs : Inv s) (hok : Meets step ok s as)
    (hrun : run step s as = some t) : Meets step ok' s as := by
  induction as generalizing s with
  | nil => trivial
  | cons a as ih =>
    obtain ⟨ha, hrest⟩ := hok
    obtain ⟨u, hu, hrun⟩ := Option.bind_eq_some_iff.mp hrun
    refine ⟨himp s a u hs ha hu, ?_⟩
    intro v hv
    cases hu.symm.trans hv
    exact ih (hstep s a u hs ha hu) (hrest u hu) hrun

/-- Two conditions that agree wherever the invariant holds are met by the same runs. -/
theorem meets_congr {step : σ → α → Option σ} {ok ok' : σ → α → Prop} {Inv : σ → Prop}
    (hstep : ∀ s a t, Inv s → ok s a → step s a = some t → Inv t)
    (hiff : ∀ s a, Inv s → (ok s a ↔ ok' s a)) {s : σ} {as : List α} (hs : Inv s) :
    Meets step ok s as ↔ Meets step ok' s as := by
  induction as generalizing s with
  | nil => exact Iff.rfl
  | cons a as ih =>
    rw [Meets, Meets, ← hiff s a hs]
    refine and_congr_right fun ha => forall₂_congr ?_
    intro t ht
    exact ih (hstep s a t hs ha ht)

/-- A run that meets a condition meets it in the state that it reaches. -/
theorem Meets.last {step : σ → α → Option σ} {ok : σ → α → Prop} {s t : σ} {as : List α} {a : α}
    (hok : Meets step ok s (as ++ [a])) (hrun : run step s as = some t) : ok t a := by
  induction as generalizing s with
  | nil =>
    cases hrun
    exact hok.1
  | cons b as ih =>
    obtain ⟨u, hu, hrun⟩ := Option.bind_eq_some_iff.mp hrun
    exact ih (hok.2 u hu) hrun

/-- The rule without a condition: what every action preserves, every run does. -/
theorem run_preserves {step : σ → α → Option σ} {Inv : σ → Prop}
    (hstep : ∀ s a t, Inv s → step s a = some t → Inv t)
    {s t : σ} {as : List α} (hs : Inv s) (hrun : run step s as = some t) : Inv t := by
  induction as generalizing s with
  | nil =>
    cases hrun
    exact hs
  | cons a as ih =>
    obtain ⟨u, hu, hrun⟩ := Option.bind_eq_some_iff.mp hrun
    exact ih (hstep s a u hs hu) hrun

/-- The rule for runs of some of the actions. -/
theorem run_preserves_of {step : σ → α → Option σ} {ok : α → Prop} {Inv : σ → Prop}
    (hstep : ∀ s a t, Inv s → ok a → step s a = some t → Inv t) {s t : σ} {as : List α}
    (hs : Inv s) (hok : ∀ a ∈ as, ok a) (hrun : run step s as = some t) : Inv t := by
  induction as generalizing s with
  | nil =>
    cases hrun
    exact hs
  | cons a as ih =>
    obtain ⟨u, hu, hrun⟩ := Option.bind_eq_some_iff.mp hrun
    exact ih (hstep s a u hs (hok a List.mem_cons_self) hu)
      (fun b hb => hok b (List.mem_cons_of_mem a hb)) hrun

/-- What an action establishes wherever the invariant holds, it establishes at
the end of every run that meets the condition. -/
theorem run_last {step : σ → α → Option σ} {ok : σ → α → Prop} {Inv P : σ → Prop} {a : α}
    (hstep : ∀ s a t, Inv s → ok s a → step s a = some t → Inv t)
    (hlast : ∀ s t, Inv s → ok s a → step s a = some t → P t)
    {s t : σ} {as : List α} (hs : Inv s) (hok : Meets step ok s (as ++ [a]))
    (hrun : run step s (as ++ [a]) = some t) : P t := by
  induction as generalizing s with
  | nil =>
    obtain ⟨u, hu, hrun⟩ := Option.bind_eq_some_iff.mp hrun
    cases hrun
    exact hlast s t hs hok.1 hu
  | cons b as ih =>
    obtain ⟨hb, hrest⟩ := hok
    obtain ⟨u, hu, hrun⟩ := Option.bind_eq_some_iff.mp hrun
    exact ih (hstep s b u hs hb hu) (hrest u hu) hrun

/-- Where each action keeps a property exactly when it meets the condition, a
run keeps the property exactly when all its actions meet it. -/
theorem run_iff_meets {step : σ → α → Option σ} {ok : σ → α → Prop} {Inv P : σ → Prop}
    (hinv : ∀ s a t, Inv s → step s a = some t → Inv t)
    (hstep : ∀ s a t, Inv s → step s a = some t → (P t ↔ P s ∧ ok s a))
    {s t : σ} {as : List α} (hs : Inv s) (hrun : run step s as = some t) :
    P t ↔ P s ∧ Meets step ok s as := by
  induction as generalizing s with
  | nil =>
    cases hrun
    simp [Meets]
  | cons a as ih =>
    obtain ⟨u, hu, hrun⟩ := Option.bind_eq_some_iff.mp hrun
    rw [ih (hinv s a u hs hu) hrun, hstep s a u hs hu]
    simp only [Meets, hu, Option.mem_def, Option.some.injEq, forall_eq', and_assoc]

/-- Where each action keeps a property exactly when it meets the condition, the property holds in
every state that a run goes through exactly when all its actions meet it. -/
theorem always_iff_meets {step : σ → α → Option σ} {ok : σ → α → Prop} {Inv P : σ → Prop}
    (hinv : ∀ s a t, Inv s → step s a = some t → Inv t)
    (hstep : ∀ s a t, Inv s → P s → step s a = some t → (P t ↔ ok s a))
    {s t : σ} {as : List α} (hs : Inv s) (hP : P s) (hrun : run step s as = some t) :
    (∀ front u, front <+: as → run step s front = some u → P u) ↔ Meets step ok s as := by
  induction as generalizing s with
  | nil =>
    refine ⟨fun _ => trivial, fun _ front u hfront hu => ?_⟩
    rw [List.prefix_nil.mp hfront] at hu
    cases hu
    exact hP
  | cons a as ih =>
    obtain ⟨v, hv, hlater⟩ := Option.bind_eq_some_iff.mp hrun
    constructor
    · intro h
      have hPv : P v := by
        apply h [a] v (List.prefix_append [a] as)
        rw [run, hv]
        rfl
      refine ⟨(hstep s a v hs hP hv).mp hPv, ?_⟩
      intro v' hv'
      cases hv.symm.trans hv'
      apply (ih (hinv s a v hs hv) hPv hlater).mp
      intro front u hfront hu
      apply h (a :: front) u (List.cons_prefix_cons.mpr ⟨rfl, hfront⟩)
      rw [run, hv]
      exact hu
    · rintro ⟨ha, hrest⟩ front u hfront hu
      have hPv : P v := (hstep s a v hs hP hv).mpr ha
      cases front with
      | nil =>
        cases hu
        exact hP
      | cons a' front =>
        obtain ⟨rfl, htail⟩ := List.cons_prefix_cons.mp hfront
        rw [run, hv] at hu
        exact (ih (hinv s a' v hs hv) hPv hlater).mpr (hrest v hv) front u htail hu

/-- A run is one part after the other. -/
theorem run_append {step : σ → α → Option σ} {s t : σ} {front back : List α} :
    run step s (front ++ back) = some t ↔
      ∃ u, run step s front = some u ∧ run step u back = some t := by
  induction front generalizing s with
  | nil => simp [run]
  | cons a front ih =>
    simp only [List.cons_append, run, Option.bind_eq_some_iff, ih]
    constructor
    · rintro ⟨u, hu, v, hv, ht⟩
      exact ⟨v, ⟨u, hu, hv⟩, ht⟩
    · rintro ⟨v, ⟨u, hu, hv⟩, ht⟩
      exact ⟨u, hu, v, hv, ht⟩

/-- A property that a run ends with and does not start with comes with one of its actions. -/
theorem run_crosses {step : σ → α → Option σ} {P : σ → Prop} {s t : σ} {as : List α}
    (hs : ¬ P s) (ht : P t) (hrun : run step s as = some t) :
    ∃ front a back u v, as = front ++ a :: back ∧ run step s front = some u ∧ ¬ P u ∧
      step u a = some v ∧ P v ∧ run step v back = some t := by
  induction as generalizing s with
  | nil =>
    cases hrun
    exact absurd ht hs
  | cons a as ih =>
    obtain ⟨u, hu, hrest⟩ := Option.bind_eq_some_iff.mp hrun
    by_cases hP : P u
    · exact ⟨[], a, as, s, u, rfl, rfl, hs, hu, hP, hrest⟩
    · obtain ⟨front, b, back, v, w, rfl, hfront, hv, hstep, hw, hback⟩ := ih hP hrest
      refine ⟨a :: front, b, back, v, w, rfl, ?_, hv, hstep, hw, hback⟩
      rw [run, hu]
      exact hfront

/-- A condition is met by a run when it holds of each action in the state in which it is taken. -/
theorem meets_iff {step : σ → α → Option σ} {ok : σ → α → Prop} {s : σ} {as : List α} :
    Meets step ok s as ↔
      ∀ front a back t, as = front ++ a :: back → run step s front = some t → ok t a := by
  constructor
  · rintro h front a back t rfl hrun
    induction front generalizing s with
    | nil =>
      cases hrun
      exact h.1
    | cons b front ih =>
      obtain ⟨u, hu, hrun⟩ := Option.bind_eq_some_iff.mp hrun
      exact ih (h.2 u hu) hrun
  · intro h
    induction as generalizing s with
    | nil => trivial
    | cons a as ih =>
      refine ⟨h [] a as s rfl rfl, ?_⟩
      intro t ht
      apply ih
      rintro front b back u rfl hrun
      apply h (a :: front) b back u rfl
      rw [run, Option.mem_def.mp ht]
      exact hrun

/-- A run that meets a condition meets it in every stretch. -/
theorem Meets.stretch {step : σ → α → Option σ} {ok : σ → α → Prop} {s t : σ}
    {front mid back : List α} (hok : Meets step ok s (front ++ (mid ++ back)))
    (hrun : run step s front = some t) : Meets step ok t mid := by
  rw [meets_iff] at hok ⊢
  rintro front' a back' u rfl hrun'
  apply hok (front ++ front') a (back' ++ back) u (by simp)
  exact run_append.mpr ⟨t, hrun, hrun'⟩

theorem Meets.front {step : σ → α → Option σ} {ok : σ → α → Prop} {s : σ} {front back : List α}
    (hok : Meets step ok s (front ++ back)) : Meets step ok s front := by
  rw [meets_iff] at hok ⊢
  rintro front' a back' t rfl hrun
  exact hok front' a (back' ++ back) t (by simp) hrun

/-- Some run leads from one state to the other. -/
def Reaches (step : σ → α → Option σ) (s t : σ) : Prop := ∃ as, run step s as = some t

theorem Reaches.refl (step : σ → α → Option σ) (s : σ) : Reaches step s s := ⟨[], rfl⟩

theorem Reaches.step {step : σ → α → Option σ} {s t : σ} {a : α} (h : step s a = some t) :
    Reaches step s t := ⟨[a], by simp [run, h]⟩

/-- What is reached from what is reached is reached. -/
theorem Reaches.trans {step : σ → α → Option σ} {s t u : σ} (hst : Reaches step s t)
    (htu : Reaches step t u) : Reaches step s u := by
  obtain ⟨as, hst⟩ := hst
  obtain ⟨bs, htu⟩ := htu
  refine ⟨as ++ bs, ?_⟩
  induction as generalizing s with
  | nil =>
    cases hst
    exact htu
  | cons a as ih =>
    obtain ⟨v, hv, hst⟩ := Option.bind_eq_some_iff.mp hst
    rw [List.cons_append, run, hv, Option.bind_some]
    exact ih hst

/-- A relation that every action of one system carries over to a run of another
carries whole runs over. -/
theorem run_simulation {τ β : Type} {step : σ → α → Option σ} {step' : τ → β → Option τ}
    {R : σ → τ → Prop}
    (hsim : ∀ s a t s', R s s' → step s a = some t → ∃ t', Reaches step' s' t' ∧ R t t')
    {s t : σ} {s' : τ} {as : List α} (hs : R s s') (hrun : run step s as = some t) :
    ∃ t', Reaches step' s' t' ∧ R t t' := by
  induction as generalizing s s' with
  | nil =>
    cases hrun
    exact ⟨s', .refl _ _, hs⟩
  | cons a as ih =>
    obtain ⟨u, hu, hrun⟩ := Option.bind_eq_some_iff.mp hrun
    obtain ⟨u', hsu, hu'⟩ := hsim s a u s' hs hu
    obtain ⟨t', hut, ht'⟩ := ih hu' hrun
    exact ⟨t', hsu.trans hut, ht'⟩

end Runs
