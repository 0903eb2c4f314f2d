import Mathlib.Data.Finset.Card
import Mathlib.Data.List.Nodup
import Tentacle.GoValues
import Tentacle.GraphSearch

/-!
# Names of a MIB

A definition of a MIB gives the name of its parent and a number below it. The definitions are gone
through again and again, until no more of them has a parent with an OID. What is resolved in the
end are the names whose chain of parents ends in a well-known root, in whatever order the
definitions come.
-/

namespace SnmpMib

open GoValues GraphSearch

structure RawDefinition where
  name : String
  parent : String
  index : Int
  objectSyntax : String := ""
  maxAccess : String := ""
  sequenceOf : String := ""
  indexNames : List String := []
  deriving DecidableEq, Repr

structure MibNode where
  name : String
  oid : String
  parent : String := ""
  index : Int := 0
  objectSyntax : String := ""
  maxAccess : String := ""
  sequenceOf : String := ""
  indexNames : List String := []
  deriving DecidableEq, Repr

def wellKnownRoots : GoMap String String where
  entries := [
    ⟨"iso", ".1"⟩,
    ⟨"org", ".1.3"⟩,
    ⟨"dod", ".1.3.6"⟩,
    ⟨"internet", ".1.3.6.1"⟩,
    ⟨"directory", ".1.3.6.1.1"⟩,
    ⟨"mgmt", ".1.3.6.1.2"⟩,
    ⟨"mib-2", ".1.3.6.1.2.1"⟩,
    ⟨"system", ".1.3.6.1.2.1.1"⟩,
    ⟨"interfaces", ".1.3.6.1.2.1.2"⟩,
    ⟨"at", ".1.3.6.1.2.1.3"⟩,
    ⟨"ip", ".1.3.6.1.2.1.4"⟩,
    ⟨"icmp", ".1.3.6.1.2.1.5"⟩,
    ⟨"tcp", ".1.3.6.1.2.1.6"⟩,
    ⟨"udp", ".1.3.6.1.2.1.7"⟩,
    ⟨"egp", ".1.3.6.1.2.1.8"⟩,
    ⟨"transmission", ".1.3.6.1.2.1.10"⟩,
    ⟨"snmp", ".1.3.6.1.2.1.11"⟩,
    ⟨"experimental", ".1.3.6.1.3"⟩,
    ⟨"private", ".1.3.6.1.4"⟩,
    ⟨"enterprises", ".1.3.6.1.4.1"⟩,
    ⟨"security", ".1.3.6.1.5"⟩,
    ⟨"snmpV2", ".1.3.6.1.6"⟩,
    ⟨"snmpDomains", ".1.3.6.1.6.1"⟩,
    ⟨"snmpProxys", ".1.3.6.1.6.2"⟩,
    ⟨"snmpModules", ".1.3.6.1.6.3"⟩]
  nodupKeys := by rw [List.NodupKeys]; decide

/-! ## The loop -/

structure MibTree where
  byOID : GoMap String MibNode
  byName : GoMap String String

structure Resolution extends MibTree where
  resolved : Finset String := ∅
  changed : Bool := false

def seed : Resolution where
  byOID := wellKnownRoots.entries.foldl (fun m e => m.insert e.2 { name := e.1, oid := e.2 }) ∅
  byName := wellKnownRoots

def childOID (parentOID : String) (index : Int) : String := parentOID ++ "." ++ toString index

/-- The body of the loop over the definitions. -/
def resolveDef (s : Resolution) (d : RawDefinition) : Resolution :=
  if d.name ∈ s.resolved then s
  else
    match s.byName.lookup d.parent with
    | none => s
    | some parentOID =>
      let oid := childOID parentOID d.index
      { byName := s.byName.insert d.name oid
        byOID := s.byOID.insert oid
          { name := d.name
            oid
            parent := d.parent
            index := d.index
            objectSyntax := d.objectSyntax
            maxAccess := d.maxAccess
            sequenceOf := d.sequenceOf
            indexNames := d.indexNames }
        resolved := insert d.name s.resolved
        changed := true }

/-- One time through the definitions. -/
def pass (allDefs : List RawDefinition) (s : Resolution) : Resolution :=
  allDefs.foldl resolveDef { s with changed := false }

def unresolved (allDefs : List RawDefinition) (s : Resolution) : Finset String :=
  (allDefs.map (·.name)).toFinset \ s.resolved

/-- What the definitions can do to a state: nothing, or one more of their names is resolved. -/
theorem resolveDef_cases (s : Resolution) (d : RawDefinition) :
    (resolveDef s d = s ∧ (d.name ∈ s.resolved ∨ s.byName.lookup d.parent = none)) ∨
      ∃ parentOID, d.name ∉ s.resolved ∧ s.byName.lookup d.parent = some parentOID ∧
        (resolveDef s d).byName = s.byName.insert d.name (childOID parentOID d.index) ∧
          (resolveDef s d).resolved = insert d.name s.resolved ∧
            (resolveDef s d).changed = true := by
  rw [resolveDef]
  split_ifs with hdone
  · exact .inl ⟨rfl, .inl hdone⟩
  · cases hparent : s.byName.lookup d.parent with
    | none => exact .inl ⟨rfl, .inr rfl⟩
    | some parentOID => exact .inr ⟨parentOID, hdone, rfl, rfl, rfl, rfl⟩

/-- Nothing that has been resolved is lost. -/
theorem resolved_subset_foldl (defs : List RawDefinition) (s : Resolution) :
    s.resolved ⊆ (defs.foldl resolveDef s).resolved := by
  induction defs generalizing s with
  | nil => exact Finset.Subset.refl _
  | cons d defs ih =>
    refine Finset.Subset.trans ?_ (ih (resolveDef s d))
    obtain ⟨heq, -⟩ | ⟨_, -, -, -, hresolved, -⟩ := resolveDef_cases s d
    · rw [heq]
    · rw [hresolved]
      exact Finset.subset_insert _ _

/-- A pass that changes something resolves a name. -/
theorem exists_resolved_of_changed (defs : List RawDefinition) (s : Resolution)
    (hs : s.changed = false) (h : (defs.foldl resolveDef s).changed = true) :
    ∃ d ∈ defs, d.name ∉ s.resolved ∧ d.name ∈ (defs.foldl resolveDef s).resolved := by
  induction defs generalizing s with
  | nil =>
    rw [List.foldl_nil, hs] at h
    cases h
  | cons d defs ih =>
    rw [List.foldl_cons] at h ⊢
    obtain ⟨heq, -⟩ | ⟨_, hnew, -, -, hresolved, -⟩ := resolveDef_cases s d
    · rw [heq] at h ⊢
      obtain ⟨d', hmem, hnew, hnow⟩ := ih s hs h
      exact ⟨d', List.mem_cons_of_mem d hmem, hnew, hnow⟩
    · refine ⟨d, List.mem_cons_self, hnew, resolved_subset_foldl defs _ ?_⟩
      rw [hresolved]
      exact Finset.mem_insert_self _ _

/-- A pass that changes something leaves less to be resolved. -/
theorem unresolved_lt_of_changed {allDefs : List RawDefinition} {s : Resolution}
    (h : (pass allDefs s).changed = true) :
    (unresolved allDefs (pass allDefs s)).card < (unresolved allDefs s).card := by
  obtain ⟨d, hmem, hnew, hnow⟩ := exists_resolved_of_changed allDefs _ rfl h
  apply Finset.card_lt_card
  refine Finset.ssubset_iff_of_subset ?_ |>.mpr ⟨d.name, ?_, ?_⟩
  · exact Finset.sdiff_subset_sdiff (Finset.Subset.refl _)
      (resolved_subset_foldl allDefs { s with changed := false })
  · rw [unresolved, Finset.mem_sdiff, List.mem_toFinset]
    exact ⟨List.mem_map_of_mem hmem, hnew⟩
  · rw [unresolved, Finset.mem_sdiff, not_and_not_right]
    exact fun _ => hnow

/-- The loop of `resolveOids`: passes, until one changes nothing. -/
def resolveAll (allDefs : List RawDefinition) (s : Resolution) : Resolution :=
  if (pass allDefs s).changed then resolveAll allDefs (pass allDefs s) else pass allDefs s
termination_by (unresolved allDefs s).card
decreasing_by exact unresolved_lt_of_changed ‹_›

def resolveOids (allDefs : List RawDefinition) : MibTree := (resolveAll allDefs seed).toMibTree

/-! ## The invariant -/

variable {allDefs : List RawDefinition}

/-- A definition gives the one name as the parent of the other. -/
def ParentOf (allDefs : List RawDefinition) (parent name : String) : Prop :=
  ∃ d ∈ allDefs, d.parent = parent ∧ d.name = name

/-- The definitions have names of their own. -/
structure Distinct (allDefs : List RawDefinition) : Prop where
  nodup : (allDefs.map (·.name)).Nodup
  notRoot : ∀ d ∈ allDefs, d.name ∉ wellKnownRoots

theorem Distinct.eq_of_name {d d' : RawDefinition} (h : Distinct allDefs) (hd : d ∈ allDefs)
    (hd' : d' ∈ allDefs) (hname : d.name = d'.name) : d = d' :=
  List.inj_on_of_nodup_map h.nodup hd hd' hname

structure Resolving (allDefs : List RawDefinition) (s : Resolution) : Prop where
  names : ∀ name, name ∈ s.byName ↔ name ∈ wellKnownRoots ∨ name ∈ s.resolved
  roots : ∀ name ∈ wellKnownRoots, s.byName.lookup name = wellKnownRoots.lookup name
  reachable : ∀ name ∈ s.byName, Reachable (ParentOf allDefs) {n | n ∈ wellKnownRoots} name
  linked : ∀ d ∈ allDefs, d.name ∈ s.resolved → ∃ parentOID,
    s.byName.lookup d.parent = some parentOID ∧
      s.byName.lookup d.name = some (childOID parentOID d.index)

theorem resolving_seed : Resolving allDefs seed where
  names := fun name => by simp [seed]
  roots := fun _ _ => rfl
  reachable := fun _ h => .root h
  linked := fun d _ h => by simp [seed] at h

/-- Only names that are new are entered, so the OIDs that are there stay. -/
theorem Resolving.resolveDef (hdefs : Distinct allDefs) {s : Resolution} (h : Resolving allDefs s)
    {d : RawDefinition} (hd : d ∈ allDefs) : Resolving allDefs (resolveDef s d) := by
  obtain ⟨heq, -⟩ | ⟨parentOID, hnew, hparent, hbyName, hresolved, -⟩ := resolveDef_cases s d
  · rw [heq]
    exact h
  have hunknown : d.name ∉ s.byName := by
    rw [h.names]
    exact not_or.mpr ⟨hdefs.notRoot d hd, hnew⟩
  have hkept : ∀ name ∈ s.byName,
      (s.byName.insert d.name (childOID parentOID d.index)).lookup name =
        s.byName.lookup name := by
    intro name hname
    exact AList.lookup_insert_ne fun heq => hunknown (heq ▸ hname)
  have hknown : d.parent ∈ s.byName := AList.lookup_isSome.mp (by rw [hparent]; rfl)
  constructor
  · intro name
    rw [hbyName, hresolved, AList.mem_insert, h.names, Finset.mem_insert]
    exact or_left_comm
  · intro name hname
    rw [hbyName, hkept name ((h.names name).mpr (.inl hname))]
    exact h.roots name hname
  · intro name hname
    rw [hbyName, AList.mem_insert] at hname
    obtain rfl | hname := hname
    · exact (h.reachable d.parent hknown).step ⟨d, hd, rfl, rfl⟩
    · exact h.reachable name hname
  · intro d' hd' hname
    rw [hresolved, Finset.mem_insert] at hname
    rw [hbyName]
    obtain hname | hname := hname
    · obtain rfl := hdefs.eq_of_name hd' hd hname
      exact ⟨parentOID, (hkept d'.parent hknown).trans hparent, AList.lookup_insert _⟩
    · obtain ⟨oid, hoid, hlinked⟩ := h.linked d' hd' hname
      have hparentKnown : d'.parent ∈ s.byName := AList.lookup_isSome.mp (by rw [hoid]; rfl)
      have hnameKnown : d'.name ∈ s.byName := (h.names d'.name).mpr (.inr hname)
      exact ⟨oid, (hkept _ hparentKnown).trans hoid, (hkept _ hnameKnown).trans hlinked⟩

/-- A pass resolves right. -/
theorem Resolving.foldl (hdefs : Distinct allDefs) {defs : List RawDefinition}
    (hsub : ∀ d ∈ defs, d ∈ allDefs) {s : Resolution} (h : Resolving allDefs s) :
    Resolving allDefs (defs.foldl SnmpMib.resolveDef s) := by
  induction defs generalizing s with
  | nil => exact h
  | cons d defs ih =>
    obtain ⟨hd, hrest⟩ := List.forall_mem_cons.mp hsub
    exact ih hrest (h.resolveDef hdefs hd)

theorem Resolving.pass (hdefs : Distinct allDefs) {s : Resolution} (h : Resolving allDefs s) :
    Resolving allDefs (pass allDefs s) :=
  Resolving.foldl hdefs (fun _ hd => hd) ⟨h.names, h.roots, h.reachable, h.linked⟩

/-! ## The last pass -/

/-- No definition that is left has a parent with an OID. -/
def Closed (allDefs : List RawDefinition) (s : Resolution) : Prop :=
  ∀ d ∈ allDefs, d.name ∈ s.resolved ∨ s.byName.lookup d.parent = none

/-- A change is remembered to the end of the pass. -/
theorem changed_foldl {s : Resolution} (defs : List RawDefinition) (h : s.changed = true) :
    (defs.foldl resolveDef s).changed = true := by
  induction defs generalizing s with
  | nil => exact h
  | cons d defs ih =>
    apply ih
    obtain ⟨heq, -⟩ | ⟨_, -, -, -, -, hchanged⟩ := resolveDef_cases s d
    · rw [heq]
      exact h
    · exact hchanged

/-- A pass that changes nothing has found every definition resolved or without a parent. -/
theorem closed_foldl (defs : List RawDefinition) (s : Resolution)
    (h : (defs.foldl resolveDef s).changed = false) :
    defs.foldl resolveDef s = s ∧ Closed defs s := by
  induction defs generalizing s with
  | nil => exact ⟨rfl, fun _ hd => absurd hd List.not_mem_nil⟩
  | cons d defs ih =>
    rw [List.foldl_cons] at h ⊢
    obtain ⟨heq, hd⟩ | ⟨_, -, -, -, -, hchanged⟩ := resolveDef_cases s d
    · rw [heq] at h ⊢
      obtain ⟨hsame, hrest⟩ := ih s h
      exact ⟨hsame, List.forall_mem_cons.mpr ⟨hd, hrest⟩⟩
    · rw [changed_foldl defs hchanged] at h
      cases h

/-- At the end nothing that could be resolved is left. -/
theorem resolving_resolveAll (hdefs : Distinct allDefs) {s : Resolution}
    (h : Resolving allDefs s) :
    Resolving allDefs (resolveAll allDefs s) ∧ Closed allDefs (resolveAll allDefs s) := by
  fun_induction resolveAll allDefs s with
  | case1 s _ ih => exact ih (h.pass hdefs)
  | case2 s hstop =>
    obtain ⟨hsame, hclosed⟩ := closed_foldl allDefs { s with changed := false }
      (Bool.not_eq_true _ ▸ hstop)
    refine ⟨h.pass hdefs, ?_⟩
    rw [pass, hsame]
    exact hclosed

/-! ## The table -/

theorem resolving_resolveOids (hdefs : Distinct allDefs) :
    Resolving allDefs (resolveAll allDefs seed) ∧ Closed allDefs (resolveAll allDefs seed) :=
  resolving_resolveAll hdefs resolving_seed

/-- A name has an OID exactly when its chain of parents ends in a root. -/
theorem mem_byName_iff (hdefs : Distinct allDefs) (name : String) :
    name ∈ (resolveOids allDefs).byName ↔
      Reachable (ParentOf allDefs) {n | n ∈ wellKnownRoots} name := by
  obtain ⟨hresolving, hclosed⟩ := resolving_resolveOids hdefs
  constructor
  · exact hresolving.reachable name
  · intro hreach
    apply hreach.induct
    · intro root hroot
      exact (hresolving.names root).mpr (.inl hroot)
    · rintro parent child hparent ⟨d, hd, rfl, rfl⟩
      obtain hresolved | hnone := hclosed d hd
      · exact (hresolving.names d.name).mpr (.inr hresolved)
      · exact absurd hparent (AList.lookup_eq_none.mp hnone)

theorem lookup_root (hdefs : Distinct allDefs) {name : String} (h : name ∈ wellKnownRoots) :
    (resolveOids allDefs).byName.lookup name = wellKnownRoots.lookup name :=
  (resolving_resolveOids hdefs).1.roots name h

theorem lookup_child (hdefs : Distinct allDefs) {d : RawDefinition} (hd : d ∈ allDefs)
    (hname : d.name ∈ (resolveOids allDefs).byName) :
    ∃ parentOID, (resolveOids allDefs).byName.lookup d.parent = some parentOID ∧
      (resolveOids allDefs).byName.lookup d.name = some (childOID parentOID d.index) := by
  obtain ⟨hresolving, -⟩ := resolving_resolveOids hdefs
  have hresolved := ((hresolving.names d.name).mp hname).resolve_left (hdefs.notRoot d hd)
  exact hresolving.linked d hd hresolved

theorem Distinct.perm {allDefs' : List RawDefinition} (h : Distinct allDefs)
    (hperm : allDefs'.Perm allDefs) : Distinct allDefs' where
  nodup := (hperm.map _).nodup_iff.mpr h.nodup
  notRoot d hd := h.notRoot d (hperm.mem_iff.mp hd)

/-- Along the chain of parents, two orders of the definitions give the same OIDs. -/
theorem lookup_perm (hdefs : Distinct allDefs) {allDefs' : List RawDefinition}
    (hperm : allDefs'.Perm allDefs) (name : String) :
    (resolveOids allDefs').byName.lookup name = (resolveOids allDefs).byName.lookup name := by
  have hdefs' := hdefs.perm hperm
  have hparents : ParentOf allDefs' = ParentOf allDefs := by
    funext parent name
    simp only [ParentOf, hperm.mem_iff]
  have hmem : ∀ name, name ∈ (resolveOids allDefs').byName ↔
      name ∈ (resolveOids allDefs).byName := by
    intro name
    rw [mem_byName_iff hdefs', mem_byName_iff hdefs, hparents]
  by_cases hname : name ∈ (resolveOids allDefs).byName
  · have hreach := (mem_byName_iff hdefs name).mp hname
    have hsame : name ∈ (resolveOids allDefs).byName ∧
        (resolveOids allDefs').byName.lookup name =
          (resolveOids allDefs).byName.lookup name := by
      apply hreach.induct
      · intro root hroot
        refine ⟨(mem_byName_iff hdefs root).mpr (.root hroot), ?_⟩
        rw [lookup_root hdefs' hroot, lookup_root hdefs hroot]
      · rintro parent child ⟨hparent, hlookup⟩ ⟨d, hd, rfl, rfl⟩
        have hreachable := (mem_byName_iff hdefs d.parent).mp hparent
        have hchild := (mem_byName_iff hdefs d.name).mpr (hreachable.step ⟨d, hd, rfl, rfl⟩)
        obtain ⟨oid, hoid, hd₁⟩ := lookup_child hdefs hd hchild
        obtain ⟨oid', hoid', hd₂⟩ := lookup_child hdefs' (hperm.mem_iff.mpr hd)
          ((hmem d.name).mpr hchild)
        rw [hlookup, hoid] at hoid'
        refine ⟨hchild, ?_⟩
        rw [hd₂, hd₁, Option.some.inj hoid']
    exact hsame.2
  · rw [AList.lookup_eq_none.mpr hname, AList.lookup_eq_none.mpr (mt (hmem name).mp hname)]

/-- The table of names: the roots with their OIDs, and the definitions whose chain of parents ends
in a root, each with the OID of its parent and its number behind it, in whatever order the
definitions come. -/
theorem resolveOids_exact (allDefs : List RawDefinition) (hdefs : Distinct allDefs) :
    (∀ name, name ∈ (resolveOids allDefs).byName ↔
      Reachable (ParentOf allDefs) {n | n ∈ wellKnownRoots} name) ∧
    (∀ name ∈ wellKnownRoots,
      (resolveOids allDefs).byName.lookup name = wellKnownRoots.lookup name) ∧
    (∀ d ∈ allDefs, d.name ∈ (resolveOids allDefs).byName →
      ∃ parentOID, (resolveOids allDefs).byName.lookup d.parent = some parentOID ∧
        (resolveOids allDefs).byName.lookup d.name =
          some (parentOID ++ "." ++ toString d.index)) ∧
    ∀ allDefs', allDefs'.Perm allDefs → ∀ name,
      (resolveOids allDefs').byName.lookup name = (resolveOids allDefs).byName.lookup name :=
  ⟨mem_byName_iff hdefs, fun _ h => lookup_root hdefs h, fun _ hd h => lookup_child hdefs hd h,
    fun _ hperm name => lookup_perm hdefs hperm name⟩

/-- A sensor that comes before its parent, and two definitions that are each other's parent. -/
def acmeDefs : List RawDefinition :=
  [{ name := "acmeSensor", parent := "acme", index := 2 },
    { name := "acme", parent := "enterprises", index := 99 },
    { name := "loop", parent := "pool", index := 1 },
    { name := "pool", parent := "loop", index := 1 }]

theorem distinct_acmeDefs : Distinct acmeDefs := ⟨by decide, by decide⟩

theorem resolveOids_exact_acme :
    (resolveOids acmeDefs).byName.lookup "acme" = some ".1.3.6.1.4.1.99" := by
  obtain ⟨hmem, hroots, hchildren, -⟩ := resolveOids_exact acmeDefs distinct_acmeDefs
  have hacme : ({ name := "acme", parent := "enterprises", index := 99 } : RawDefinition) ∈
      acmeDefs := by decide
  have hreach : Reachable (ParentOf acmeDefs) {n | n ∈ wellKnownRoots} "acme" := by
    have hroot : "enterprises" ∈ wellKnownRoots := by decide
    exact (Reachable.root hroot).step ⟨_, hacme, rfl, rfl⟩
  obtain ⟨parentOID, hparent, hlookup⟩ := hchildren _ hacme ((hmem "acme").mpr hreach)
  have henterprises : some parentOID = some ".1.3.6.1.4.1" :=
    hparent.symm.trans (hroots "enterprises" (by decide))
  rw [hlookup, Option.some.inj henterprises]
  decide

end SnmpMib
