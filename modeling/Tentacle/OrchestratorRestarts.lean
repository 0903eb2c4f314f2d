import Tentacle.Orchestrator

/-!
# Starts, restarts and stops one after another

A call begins only when no other is in progress; the goroutines of the instances return and clean
up at any time, also within a call. Then nothing is registered twice, and the one thing that can
take the entry of a live instance away is the clean-up of an older one.
-/

namespace Orchestrator

open GoValues

/-- No call begins while another is in progress. -/
def sequentialStep (b : Setup) (s : System) (a : Action) : Option System :=
  if a.begins ∧ s.calls ≠ [] then none else step b s a

/-- What a call has found is still so, but for an entry that was cleaned up meanwhile. -/
def Call.Fits (s : System) : Call → Prop
  | .reconcile desired isRunning _ => isRunning = false →
    s.running.lookup desired.moduleID = none
  | .stopping _ _ => True
  | .restart moduleID rm => ∀ i ∈ s.running.lookup moduleID, i = rm
  | .starting moduleID rm => ∀ i ∈ s.running.lookup moduleID, i = rm

structure Sequential (s : System) : Prop where
  tracked : Tracked s
  told : Told s
  length : s.calls.length ≤ 1
  fits : ∀ c ∈ s.calls, c.Fits s

/-- A call fits a table with fewer entries too. -/
theorem Call.Fits.mono {s t : System} {c : Call} (h : c.Fits s)
    (hsub : ∀ m i, t.running.lookup m = some i → s.running.lookup m = some i) : c.Fits t := by
  cases c with
  | reconcile desired isRunning sweep =>
    intro hnot
    apply Option.eq_none_iff_forall_not_mem.mpr
    intro i hi
    cases (h hnot).symm.trans (hsub _ i hi)
  | stopping moduleID rm => trivial
  | restart moduleID rm => exact fun i hi => h i (hsub _ i hi)
  | starting moduleID rm => exact fun i hi => h i (hsub _ i hi)

/-- A call that has just been made fits if the earlier ones did. -/
theorem Call.Fresh.fits {s t : System} {c : Call} (h : c.Fresh s t)
    (hfits : ∀ c ∈ s.calls, c.Fits s) : c.Fits s := by
  cases c with
  | reconcile desired isRunning sweep =>
    intro hnot
    rw [Call.Fresh, hnot] at h
    exact Option.isNone_iff_eq_none.mp (Option.isSome_eq_false_iff.mp h.symm)
  | stopping moduleID rm => trivial
  | restart moduleID rm => exact fun i hi => Option.some.inj (hi.symm.trans h)
  | starting moduleID rm =>
    change (Call.restart moduleID rm).Fits s
    exact hfits _ h.1

/-- Only a registration adds an entry, and it ends the call. -/
theorem Effect.lookup_of_call {s t : System} {a : Action} (heff : Effect s a t)
    (hlen : s.calls.length ≤ 1) {c : Call} (hc : c ∈ t.calls) :
    ∀ m i, t.running.lookup m = some i → s.running.lookup m = some i := by
  cases heff with
  | quiet running _ _ => rw [running]; exact fun _ _ hi => hi
  | started _ _ _ _ _ _ calls =>
    have hpos := List.length_pos_of_mem hc
    omega
  | taken _ _ _ running _ _ => exact fun m i hi => (lookup_erase_some (running ▸ hi)).2
  | stopped _ running _ _ _ => rw [running]; exact fun _ _ hi => hi
  | dropped _ _ _ running _ _ => exact fun m i hi => (lookup_erase_some (running ▸ hi)).2
  | exited _ running _ _ => rw [running]; exact fun _ _ hi => hi
  | cleaned _ _ _ _ running _ _ => exact fun m i hi => (lookup_erase_some (running ▸ hi)).2

/-- With one call at a time the call fits the table. -/
theorem sequential_step {b : Setup} {s t : System} {a : Action} (h : Sequential s)
    (hstep : sequentialStep b s a = some t) : Sequential t := by
  obtain ⟨hbegins, hstep⟩ := Option.ite_none_left_eq_some.mp hstep
  obtain ⟨heff, hcalls⟩ := step_effect hstep
  constructor
  · exact tracked_effect h.tracked heff
  · exact told_effect h.tracked h.told heff hcalls
  · have hlength := hcalls.length
    split at hlength
    next hb =>
      have hnil : s.calls = [] := by
        by_contra hne
        exact hbegins ⟨hb, hne⟩
      rw [hnil] at hlength
      exact hlength
    next => exact Nat.le_trans hlength h.length
  · intro c hc
    have hfits : c.Fits s := by
      obtain hc | hc := hcalls.fresh c hc
      · exact h.fits c hc
      · exact hc.fits h.fits
    exact hfits.mono (heff.lookup_of_call h.length hc)

theorem sequential_initial : Sequential {} :=
  ⟨orderly_initial.tracked, orderly_initial.told, Nat.zero_le _, nofun⟩

/-- A single call in progress finds what it has found before. -/
theorem Sequential.undisturbed {s : System} (h : Sequential s) (n : Nat) :
    Undisturbed s (.resume n) := by
  rw [Undisturbed]
  cases hc : s.calls[n]? with
  | none => trivial
  | some c =>
    have honly : s.calls = [c] := by
      obtain ⟨d, hd⟩ := List.length_eq_one_iff.mp
        (Nat.le_antisymm h.length (List.length_pos_of_mem (List.mem_of_getElem? hc)))
      have hmem := List.mem_of_getElem? hc
      rw [hd] at hmem ⊢
      rw [List.mem_singleton.mp hmem]
    have hfits := h.fits c (List.mem_of_getElem? hc)
    cases c with
    | reconcile desired isRunning sweep =>
      intro _ hnot
      refine ⟨hfits hnot, ?_⟩
      rw [honly]
      simp [Call.stops]
    | stopping moduleID rm => trivial
    | restart moduleID rm => trivial
    | starting moduleID rm =>
      refine ⟨hfits, ?_⟩
      rw [honly]
      simp [Call.stops]

theorem Sequential.none_live {s : System} {a : Action} (h : Sequential s) (hheld : Held s) :
    ∀ m ∈ registers s a, ∀ i, ¬ Live s i m := by
  cases a with
  | resume n => exact (h.undisturbed n).none_live hheld h.told
  | _ => exact nofun

/-- A cleanup takes out the entry of the module, whichever instance it names. -/
theorem cleanup_eq {b : Setup} {s t : System} {i : Nat} {inst : Instance}
    (hinst : s.instances[i]? = some inst) (h : step b s (.cleanup i) = some t) :
    t = { update s i fun inst => { inst with cleanedUp := true } with
      running := s.running.erase inst.moduleID } := by
  unfold step at h
  split at h
  next => cases h
  next =>
    obtain ⟨inst', hinst', h⟩ := Option.bind_eq_some_iff.mp h
    cases hinst.symm.trans hinst'
    obtain ⟨-, ⟨⟩⟩ := Option.ite_none_right_eq_some.mp h
    rfl

/-- The clean-up of an instance, and nothing else, takes the entry of a live one away. -/
theorem held_sequentialStep_iff {b : Setup} {s t : System} {a : Action} (h : Sequential s)
    (hheld : Held s) (hstep : sequentialStep b s a = some t) : Held t ↔ CleansOwn s a := by
  obtain ⟨-, hstep⟩ := Option.ite_none_left_eq_some.mp hstep
  obtain ⟨heff, -⟩ := step_effect hstep
  constructor
  · intro ht
    cases a with
    | cleanup i =>
      intro inst hinst j hj
      by_contra hother
      have hlive : Live s j inst.moduleID := not_not.mp (not_or.mp hother).2
      rw [cleanup_eq hinst hstep] at ht
      obtain hentry | hstop := ht j inst.moduleID ((live_cleanup_iff rfl).mpr hlive)
      · exact (lookup_erase_some hentry).1 rfl
      · exact h.tracked.taken _ _ hstop hj
    | _ => trivial
  · intro hclean
    exact held_effect hheld hclean (h.none_live hheld) heff

/-- However starts, restarts and stops follow each other: every live instance is the entry of its
module all along exactly when no clean-up finds the entry of another live instance. -/
theorem held_iff_cleansOwn (b : Setup) (as : List Action) (t : System)
    (hrun : Runs.run (sequentialStep b) {} as = some t) :
    (∀ front u, front <+: as → Runs.run (sequentialStep b) {} front = some u → Held u) ↔
      Runs.Meets (sequentialStep b) CleansOwn {} as :=
  Runs.always_iff_meets (fun _ _ _ => sequential_step)
    (fun _ _ _ => held_sequentialStep_iff) sequential_initial orderly_initial.held hrun

instance CleansOwn.decidable (s : System) : (a : Action) → Decidable (CleansOwn s a)
  | .cleanup i => inferInstanceAs (Decidable (∀ inst ∈ s.instances[i]?,
    ∀ j ∈ s.running.lookup inst.moduleID, j = i ∨ ¬ Live s j inst.moduleID))
  | .reconcile .. | .restartService _ | .kvDelete _ | .resume _ | .exit .. => isTrue trivial

theorem quietRun_held :
    ∃ t, Runs.run (sequentialStep oneModule) {} quietRun = some t ∧
      t.running.lookup "plc" = some 2 ∧ Live t 2 "plc" ∧
      ∀ front u, front <+: quietRun → Runs.run (sequentialStep oneModule) {} front = some u →
        Held u := by
  have hok : Runs.Meets (sequentialStep oneModule) CleansOwn {} quietRun := by decide
  have hend : (Runs.run (sequentialStep oneModule) {} quietRun).map (fun t =>
      (t.running.lookup "plc", decide (Live t 2 "plc"))) = some (some 2, true) := by decide
  obtain ⟨t, hrun, ht⟩ := Option.map_eq_some_iff.mp hend
  obtain ⟨hentry, hlive⟩ := Prod.mk.injEq .. ▸ ht
  exact ⟨t, hrun, hentry, of_decide_eq_true hlive,
    (held_iff_cleansOwn oneModule quietRun t hrun).mpr hok⟩

/-- The goroutine of the restarted instance returns after the new one was registered. -/
def lateCleanup : List Action :=
  [.reconcile ⟨"plc", true⟩ true ∅ true, .resume 0, .restartService "plc", .resume 0, .resume 0,
    .exit 0 false, .cleanup 0]

/-- The new instance is live and cannot be found any more. -/
theorem restart_not_held :
    ¬ ∀ (b : Setup) (as : List Action) (t : System),
      Runs.run (sequentialStep b) {} as = some t → Held t := by
  intro h
  have hend : (Runs.run (sequentialStep oneModule) {} lateCleanup).map (fun t =>
      (t.running.lookup "plc", t.calls, decide (Live t 1 "plc"))) = some (none, [], true) := by
    decide
  obtain ⟨t, hrun, ht⟩ := Option.map_eq_some_iff.mp hend
  obtain ⟨hentry, hrest⟩ := Prod.mk.injEq .. ▸ ht
  obtain ⟨hcalls, hlive⟩ := Prod.mk.injEq .. ▸ hrest
  obtain hfound | hstop := h oneModule lateCleanup t hrun 1 "plc" (of_decide_eq_true hlive)
  · cases hentry.symm.trans hfound
  · rw [hcalls] at hstop
    cases hstop

end Orchestrator
