import Mathlib.Data.List.Dedup
import Mathlib.Data.Finset.Basic
import Tentacle.NatRules
import Tentacle.Runs

/-!
# Addresses of the NAT rules

The address of a rule is added to its interface by a command to the network module, and the
addresses that were added are kept in a file, so that they can be removed when no rule needs
them any more. A command may fail; the error is logged, and the file is written as if every
command had been carried out.
-/

namespace NatAliases

open NftSyntax NatRules Runs

structure ManagedAlias where
  interfaceName : Text
  address : Text
  deriving DecidableEq, Repr

inductive NetworkAction where
  | addAddress
  | removeAddress
  deriving DecidableEq, Repr

structure NetworkCommand where
  action : NetworkAction
  target : ManagedAlias
  deriving DecidableEq, Repr

/-- The alias that a rule asks for. -/
def aliasOf (r : NatRule) : Option ManagedAlias :=
  if !r.enabled ∨ r.natAddr = [] ∨ r.incomingInterface = [] then none
  else some ⟨r.incomingInterface, r.natAddr ++ "/32".toList⟩

/-- The keys of the map of the desired aliases. -/
def desired (rules : List NatRule) : List ManagedAlias := (rules.filterMap aliasOf).dedup

/-- A call of `syncAliases`: the orders in which Go reads the map of the desired aliases, and
which commands the network module carries out. -/
structure Call where
  rules : List NatRule
  addOrder : List ManagedAlias
  saveOrder : List ManagedAlias
  addOrder_perm : addOrder.Perm (desired rules)
  saveOrder_perm : saveOrder.Perm (desired rules)
  succeeds : NetworkCommand → Bool

/-- The commands of a call and the state that it saves. Whether a command succeeds is logged
and nothing else. -/
def syncAliases (current : List ManagedAlias) (c : Call) :
    List NetworkCommand × List ManagedAlias :=
  let removals := current.filter (· ∉ desired c.rules)
  let additions := c.addOrder.filter (· ∉ current)
  (removals.map (⟨.removeAddress, ·⟩) ++ additions.map (⟨.addAddress, ·⟩), c.saveOrder)

/-- The state file, and what the commands have done to the interfaces. -/
structure State where
  saved : List ManagedAlias
  /-- The aliases that were added and have not been removed since. -/
  present : Finset ManagedAlias
  /-- The aliases whose addition failed in the last call. -/
  failed : List ManagedAlias

def carryOut (succeeds : NetworkCommand → Bool) (present : Finset ManagedAlias)
    (cmd : NetworkCommand) : Finset ManagedAlias :=
  if succeeds cmd then
    match cmd.action with
    | .addAddress => insert cmd.target present
    | .removeAddress => present.erase cmd.target
  else present

def failedAdditions (succeeds : NetworkCommand → Bool) (cmds : List NetworkCommand) :
    List ManagedAlias :=
  (cmds.filter fun cmd => cmd.action = .addAddress ∧ !succeeds cmd).map (·.target)

def step (s : State) (c : Call) : Option State :=
  let (cmds, saved) := syncAliases s.saved c
  some {
    saved := saved
    present := cmds.foldl (carryOut c.succeeds) s.present
    failed := failedAdditions c.succeeds cmds }

/-- Before the first call there is no state file. -/
def initial : State := ⟨[], ∅, []⟩

/-! ## What the bookkeeping is for -/

/-- Every alias that is on an interface is in the state file. -/
def Kept (s : State) : Prop := ∀ a ∈ s.present, a ∈ s.saved

/-- The call tries to add the alias. -/
def Attempts (s : State) (c : Call) (a : ManagedAlias) : Prop :=
  ⟨.addAddress, a⟩ ∈ (syncAliases s.saved c).1

/-- After each call of the run the state file has the aliases that are on the interfaces, and
an alias that a call desires and that is not on its interface then is added again by the
next call that desires it. -/
structure Sound (calls : List Call) : Prop where
  kept : ∀ front back s, calls = front ++ back → run step initial front = some s → Kept s
  retried : ∀ front c mid c' back s s' a, calls = front ++ c :: (mid ++ c' :: back) →
    run step initial (front ++ [c]) = some s → run step s mid = some s' →
      a ∈ desired c.rules → a ∉ s.present → (∀ d ∈ mid, a ∉ desired d.rules) →
        a ∈ desired c'.rules → Attempts s' c' a

/-- What a call has to meet: aliases on the interfaces that it does not desire are removed,
and it desires none whose addition has just failed. -/
structure Lucky (s : State) (c : Call) : Prop where
  removed : ∀ a ∈ s.present, a ∉ desired c.rules → c.succeeds ⟨.removeAddress, a⟩ = true
  failed : ∀ a ∈ s.failed, a ∉ desired c.rules

/-! ## What a call does -/

/-- An address is gone exactly if its removal was carried out and succeeded. -/
theorem mem_foldl_remove {succeeds : NetworkCommand → Bool} {as : List ManagedAlias}
    {present : Finset ManagedAlias} {a : ManagedAlias} :
    a ∈ (as.map (⟨.removeAddress, ·⟩)).foldl (carryOut succeeds) present ↔
      a ∈ present ∧ ¬(a ∈ as ∧ succeeds ⟨.removeAddress, a⟩ = true) := by
  induction as generalizing present with
  | nil => simp
  | cons b as ih =>
    rw [List.map_cons, List.foldl_cons, ih, carryOut]
    by_cases hb : a = b
    · subst hb
      cases succeeds ⟨.removeAddress, a⟩ with
      | true => simp
      | false => simp
    · cases succeeds ⟨.removeAddress, b⟩ with
      | true => simp [hb]
      | false => simp [hb]

/-- An address is there exactly if it was, or its addition was carried out and succeeded. -/
theorem mem_foldl_add {succeeds : NetworkCommand → Bool} {as : List ManagedAlias}
    {present : Finset ManagedAlias} {a : ManagedAlias} :
    a ∈ (as.map (⟨.addAddress, ·⟩)).foldl (carryOut succeeds) present ↔
      a ∈ present ∨ a ∈ as ∧ succeeds ⟨.addAddress, a⟩ = true := by
  induction as generalizing present with
  | nil => simp
  | cons b as ih =>
    rw [List.map_cons, List.foldl_cons, ih, carryOut]
    by_cases hb : a = b
    · subst hb
      cases succeeds ⟨.addAddress, a⟩ with
      | true => simp
      | false => simp
    · cases succeeds ⟨.addAddress, b⟩ with
      | true => simp [hb]
      | false => simp [hb]

/-- The aliases on the interfaces after a call, and those whose addition failed. -/
theorem step_eq {s t : State} {c : Call} (h : step s c = some t) :
    (∀ a, a ∈ t.saved ↔ a ∈ desired c.rules) ∧
    (∀ a, a ∈ t.present ↔
      (a ∈ s.present ∧
        ¬((a ∈ s.saved ∧ a ∉ desired c.rules) ∧ c.succeeds ⟨.removeAddress, a⟩ = true)) ∨
      (a ∈ desired c.rules ∧ a ∉ s.saved) ∧ c.succeeds ⟨.addAddress, a⟩ = true) ∧
    ∀ a, a ∈ t.failed ↔
      (a ∈ desired c.rules ∧ a ∉ s.saved) ∧ c.succeeds ⟨.addAddress, a⟩ = false := by
  cases h
  refine ⟨fun a => c.saveOrder_perm.mem_iff, fun a => ?_, fun a => ?_⟩
  · simp only [List.foldl_append, mem_foldl_add, mem_foldl_remove, List.mem_filter,
      decide_eq_true_eq, c.addOrder_perm.mem_iff]
  · simp only [failedAdditions, List.filter_append, List.map_append, List.filter_map,
      List.map_map, List.mem_append, List.mem_map, List.mem_filter, c.addOrder_perm.mem_iff]
    simp

theorem attempts_iff {s : State} {c : Call} {a : ManagedAlias} :
    Attempts s c a ↔ a ∈ desired c.rules ∧ a ∉ s.saved := by
  simp [Attempts, syncAliases, c.addOrder_perm.mem_iff]

/-! ## Runs -/

/-- What lucky calls keep: the state file has what is on the interfaces and, besides, what
has just failed to get there. -/
structure Tidy (s : State) : Prop where
  kept : Kept s
  saved : ∀ a ∈ s.saved, a ∈ s.present ∨ a ∈ s.failed
  failed : ∀ a ∈ s.failed, a ∉ s.present

theorem tidy_initial : Tidy initial where
  kept := by simp [Kept, initial]
  saved := by simp [initial]
  failed := by simp [initial]

/-- A lucky call leaves in the state file what is on the interfaces and what has just failed. -/
theorem Tidy.step {s t : State} {c : Call} (hs : Tidy s) (hlucky : Lucky s c)
    (hstep : NatAliases.step s c = some t) : Tidy t := by
  obtain ⟨hsaved, hpresent, hfailed⟩ := step_eq hstep
  constructor
  · intro a ha
    rw [hsaved]
    by_contra hundesired
    obtain ⟨ha, hremoved⟩ | ⟨⟨hdesired, -⟩, -⟩ := (hpresent a).mp ha
    · exact hremoved ⟨⟨hs.kept a ha, hundesired⟩, hlucky.removed a ha hundesired⟩
    · exact hundesired hdesired
  · intro a ha
    rw [hsaved] at ha
    rw [hpresent, hfailed]
    by_cases hold : a ∈ s.saved
    · have hon : a ∈ s.present := (hs.saved a hold).resolve_right fun hf => hlucky.failed a hf ha
      exact .inl (.inl ⟨hon, fun h => h.1.2 ha⟩)
    · cases hadd : c.succeeds ⟨.addAddress, a⟩ with
      | true => exact .inl (.inr ⟨⟨ha, hold⟩, rfl⟩)
      | false => exact .inr ⟨⟨ha, hold⟩, rfl⟩
  · intro a ha hon
    obtain ⟨⟨hdesired, hold⟩, hadd⟩ := (hfailed a).mp ha
    obtain ⟨hon, -⟩ | ⟨-, hadd'⟩ := (hpresent a).mp hon
    · exact hold (hs.kept a hon)
    · rw [hadd] at hadd'
      cases hadd'

theorem tidy_run {calls : List Call} {s : State} (hlucky : Meets step Lucky initial calls)
    (hrun : run step initial calls = some s) : Tidy s :=
  run_invariant (fun _ _ _ hs hlucky hstep => hs.step hlucky hstep) tidy_initial hlucky hrun

theorem run_singleton {s t : State} {c : Call} : run step s [c] = some t ↔ step s c = some t := by
  rw [run, Option.bind_eq_some_iff]
  constructor
  · rintro ⟨u, hu, hrun⟩
    cases hrun
    exact hu
  · exact fun h => ⟨t, h, rfl⟩

/-- The state file forgets what the last call did not desire. -/
theorem not_mem_saved_of_run {s t : State} {calls : List Call} {a : ManagedAlias}
    (hne : calls ≠ []) (hrun : run step s calls = some t)
    (h : ∀ c ∈ calls, a ∉ desired c.rules) : a ∉ t.saved := by
  obtain ⟨front, c, rfl⟩ := List.eq_nil_or_concat calls |>.resolve_left hne
  rw [List.concat_eq_append] at hrun h
  obtain ⟨u, -, hlast⟩ := run_append.mp hrun
  rw [(step_eq (run_singleton.mp hlast)).1]
  exact h c (by simp)

/-- Lucky calls keep the state file and try again what has failed. -/
theorem sound_of_lucky {calls : List Call} (hlucky : Meets step Lucky initial calls) :
    Sound calls := by
  constructor
  · rintro front back s rfl hrun
    exact (tidy_run hlucky.front hrun).kept
  · rintro front c mid c' back s s' a rfl hrun hmid hdesired hmissing hmids hdesired'
    rw [attempts_iff]
    refine ⟨hdesired', ?_⟩
    by_cases hne : mid = []
    · -- The next call follows at once, and it desires what has just failed.
      subst hne
      cases hmid
      rw [List.nil_append, List.append_cons] at hlucky
      obtain ⟨u, -, hlast⟩ := run_append.mp hrun
      have hsaved : a ∈ s.saved := ((step_eq (run_singleton.mp hlast)).1 a).mpr hdesired
      have hfailed := ((tidy_run hlucky.front hrun).saved a hsaved).resolve_left hmissing
      exact absurd hdesired' ((meets_iff.mp hlucky _ _ _ _ rfl hrun).failed a hfailed)
    · exact not_mem_saved_of_run hne hmid hmids

/-- A run that keeps the state file and tries again was a lucky one. -/
theorem Sound.lucky {calls : List Call} (h : Sound calls) : Meets step Lucky initial calls := by
  rw [meets_iff]
  rintro front c back s rfl hrun
  constructor
  · intro a hon hundesired
    by_contra hfails
    obtain ⟨t, hstep⟩ : ∃ t, step s c = some t := ⟨_, rfl⟩
    obtain ⟨hsaved, hpresent, -⟩ := step_eq hstep
    have hrun' : run step initial (front ++ [c]) = some t :=
      run_append.mpr ⟨s, hrun, run_singleton.mpr hstep⟩
    have hkept := h.kept (front ++ [c]) back t (by simp) hrun' a
      ((hpresent a).mpr (.inl ⟨hon, fun hremoved => hfails hremoved.2⟩))
    exact hundesired ((hsaved a).mp hkept)
  · intro a hfailed hdesired
    obtain rfl | ⟨front', c₀, rfl⟩ := List.eq_nil_or_concat front
    · cases hrun
      simp [initial] at hfailed
    · rw [List.concat_eq_append] at h hrun
      obtain ⟨s₀, hrun₀, hlast⟩ := run_append.mp hrun
      obtain ⟨hsaved, hpresent, hfailed'⟩ := step_eq (run_singleton.mp hlast)
      obtain ⟨⟨hdesired₀, hold⟩, hadd⟩ := (hfailed' a).mp hfailed
      have hkept := h.kept front' (c₀ :: c :: back) s₀ (by simp) hrun₀
      have hmissing : a ∉ s.present := by
        rw [hpresent, hadd]
        rintro (⟨hon, -⟩ | ⟨-, hadd'⟩)
        · exact hold (hkept a hon)
        · cases hadd'
      have hattempts := h.retried front' c₀ [] c back s s a (by simp) hrun rfl hdesired₀ hmissing
        (by simp) hdesired
      exact (attempts_iff.mp hattempts).2 ((hsaved a).mpr hdesired₀)

/-- In a run the state file always has what is on the interfaces, and failed additions are
tried again, exactly when every alias that is on an interface and not desired any more is
removed at the first try, and no call desires an alias whose addition failed in the call
before. -/
theorem sound_iff (calls : List Call) : Sound calls ↔ Meets step Lucky initial calls :=
  ⟨Sound.lucky, sound_of_lucky⟩

/-- A call with one rule, enabled or not, whose commands all succeed or all fail. -/
def oneRule (enabled succeeds : Bool) : Call where
  rules := [{ webRule with enabled := enabled, natAddr := "10.0.0.5".toList }]
  addOrder := desired [{ webRule with enabled := enabled, natAddr := "10.0.0.5".toList }]
  saveOrder := desired [{ webRule with enabled := enabled, natAddr := "10.0.0.5".toList }]
  addOrder_perm := .refl _
  saveOrder_perm := .refl _
  succeeds _ := succeeds

/-- An addition that fails is not repeated by the next call, and an alias whose removal fails
is forgotten. -/
theorem failedCommands_not_sound :
    ¬Sound [oneRule true false, oneRule true true] ∧
      ¬Sound [oneRule true true, oneRule false false] := by
  constructor
  · intro h
    have hattempts := h.retried [] _ [] _ [] _ _ ⟨"eth0".toList, "10.0.0.5/32".toList⟩ rfl rfl rfl
      (by decide) (by decide) (by simp) (by decide)
    exact absurd (attempts_iff.mp hattempts).2 (by decide)
  · intro h
    have hkept := h.kept _ [] _ (List.append_nil _).symm rfl
      ⟨"eth0".toList, "10.0.0.5/32".toList⟩ (by decide)
    exact absurd hkept (by decide)

end NatAliases
