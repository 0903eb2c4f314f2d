import Mathlib.Data.Fintype.Card
import Mathlib.Data.Finset.Image
import Tentacle.GoValues
import Tentacle.GraphSearch

/-!
# UDT templates of a controller

A browse reads the template of every structured tag, and the templates of the structured members of
those it has read. An ID may wait more than once, and a template that cannot be read is tried again
each time its ID comes up; every ID that is read is read once, and there are `2 ^ 16` of them.
-/

namespace EthernetIpTemplates

open GoValues GraphSearch

structure TagEntry where
  name : String
  symbolType : UInt16
  deriving DecidableEq, Repr

def TagEntry.isStruct (t : TagEntry) : Bool := t.symbolType &&& 0x8000 != 0

def TagEntry.isSystem (t : TagEntry) : Bool := t.symbolType &&& 0x1000 != 0

def TagEntry.templateID (t : TagEntry) : UInt16 := t.symbolType &&& 0x0FFF

structure UdtFieldDesc where
  typeCode : UInt16
  deriving DecidableEq, Repr

def UdtFieldDesc.isStruct (f : UdtFieldDesc) : Bool := f.typeCode &&& 0x8000 != 0

def UdtFieldDesc.nestedTemplateID (f : UdtFieldDesc) : UInt16 := f.typeCode &&& 0x0FFF

structure UdtField where
  name : String
  desc : UdtFieldDesc
  udtName : String := ""
  deriving DecidableEq, Repr

structure UdtTemplate where
  name : String
  fields : List UdtField
  deriving DecidableEq, Repr

abbrev Templates := GoMap UInt16 UdtTemplate

/-! ## The worklist -/

/-- The IDs that the browse starts with. -/
def templateIDs (tags : List TagEntry) : Finset UInt16 :=
  ((tags.filter fun t => t.isStruct && !t.isSystem).map TagEntry.templateID).toFinset

/-- The loop over the fields of a template that was read: the IDs that are still to process. -/
def nestedIDs (templates : Templates) (tmpl : UdtTemplate) : List UInt16 :=
  tmpl.fields.filterMap fun field =>
    if field.desc.isStruct ∧ field.desc.nestedTemplateID ∉ templates then
      some field.desc.nestedTemplateID
    else none

theorem length_keys_le (templates : Templates) : templates.keys.length ≤ 65536 := by
  have hnodup : (templates.keys.map UInt16.toFin).Nodup :=
    templates.keys_nodup.map fun _ _ => UInt16.toFin_inj.mp
  have hle := hnodup.length_le_card
  rw [List.length_map, Fintype.card_fin] at hle
  exact hle

theorem length_keys_insert {templates : Templates} {id : UInt16} (h : id ∉ templates)
    (tmpl : UdtTemplate) :
    (templates.insert id tmpl).keys.length = templates.keys.length + 1 := by
  rw [AList.keys_insert, List.length_cons, List.erase_of_not_mem h]

section Browse

variable (ctxErr : Nat → Option String) (readUdtTemplate : UInt16 → Option UdtTemplate)

/-- The worklist loop of `browseDevice`. The error of the context is looked up before the `n`-th
iteration. -/
def expand (n : Nat) (templates : Templates) (toProcess : List UInt16) :
    Except String Templates :=
  match toProcess with
  | [] => .ok templates
  | id :: rest =>
    match ctxErr n with
    | some err => .error err
    | none =>
      if id ∈ templates then expand (n + 1) templates rest
      else
        match readUdtTemplate id with
        | none => expand (n + 1) templates rest
        | some tmpl =>
          expand (n + 1) (templates.insert id tmpl)
            (rest ++ nestedIDs (templates.insert id tmpl) tmpl)
termination_by (65536 - templates.keys.length, toProcess.length)
decreasing_by
  · exact Prod.Lex.right _ (Nat.lt_succ_self _)
  · exact Prod.Lex.right _ (Nat.lt_succ_self _)
  · have hlength := length_keys_insert ‹id ∉ templates› tmpl
    have hle := length_keys_le (templates.insert id tmpl)
    exact Prod.Lex.left _ _ (by omega)

/-- A field of a structured type gets the name of its template, if that was read. -/
def resolveField (templates : Templates) (field : UdtField) : UdtField :=
  if field.desc.isStruct then
    match templates.lookup field.desc.nestedTemplateID with
    | some nested => { field with udtName := nested.name }
    | none => field
  else field

def resolveTemplate (templates : Templates) (tmpl : UdtTemplate) : UdtTemplate :=
  { tmpl with fields := tmpl.fields.map (resolveField templates) }

def resolveNames (templates : Templates) : Templates :=
  ⟨templates.entries.map (.map id fun _ => resolveTemplate templates),
    templates.nodupKeys.map₂ (fun _ => resolveTemplate templates) _⟩

/-- The templates of a browse that starts with the IDs in the given order. -/
def browseTemplates (toProcess : List UInt16) : Except String Templates :=
  (expand ctxErr readUdtTemplate 0 ∅ toProcess).map resolveNames

end Browse

/-! ## What is found -/

variable {ctxErr : Nat → Option String} {read : UInt16 → Option UdtTemplate}

/-- A template that can be read has a field of the type of the other. -/
def References (read : UInt16 → Option UdtTemplate) (id nested : UInt16) : Prop :=
  ∃ tmpl, read id = some tmpl ∧
    ∃ field ∈ tmpl.fields, field.desc.isStruct = true ∧ field.desc.nestedTemplateID = nested

/-- The templates that are still to be read are those of the fields that are structures. -/
theorem mem_nestedIDs_iff {templates : Templates} {tmpl : UdtTemplate} {id : UInt16} :
    id ∈ nestedIDs templates tmpl ↔
      (∃ field ∈ tmpl.fields, field.desc.isStruct = true ∧ field.desc.nestedTemplateID = id) ∧
        id ∉ templates := by
  rw [nestedIDs, List.mem_filterMap]
  constructor
  · rintro ⟨field, hfield, hsome⟩
    split at hsome
    case isTrue h =>
      obtain rfl := Option.some.inj hsome
      exact ⟨⟨field, hfield, h.1, rfl⟩, h.2⟩
    case isFalse => cases hsome
  · rintro ⟨⟨field, hfield, hstruct, rfl⟩, hnew⟩
    exact ⟨field, hfield, if_pos ⟨hstruct, hnew⟩⟩

/-- The search has found the templates that were read and gives up those that cannot be. -/
structure Browsing (read : UInt16 → Option UdtTemplate) (initial : List UInt16)
    (templates : Templates) (toProcess : List UInt16) : Prop where
  explored : Explored (References read) {id | id ∈ initial} {id | read id = none}
    {id | id ∈ templates} {id | id ∈ toProcess}
  contents : ∀ id tmpl, templates.lookup id = some tmpl → read id = some tmpl

/-- Before the first template all of the identifiers are still to be visited. -/
theorem browsing_start (read : UInt16 → Option UdtTemplate) (initial : List UInt16) :
    Browsing read initial ∅ initial := by
  have hempty : {id : UInt16 | id ∈ (∅ : Templates)} = ∅ :=
    Set.eq_empty_of_forall_notMem fun id h => AList.notMem_empty id h
  constructor
  · rw [hempty]
    exact explored_start
  · intro id tmpl hlookup
    cases hlookup

theorem setOf_mem_cons (id : UInt16) (rest : List UInt16) :
    {x | x ∈ id :: rest} = insert id {x | x ∈ rest} := by
  ext x
  simp

theorem Browsing.skip {initial : List UInt16} {templates : Templates} {id : UInt16}
    {rest : List UInt16} (h : Browsing read initial templates (id :: rest))
    (hid : id ∈ templates ∨ read id = none) : Browsing read initial templates rest := by
  obtain ⟨hexplored, hcontents⟩ := h
  rw [setOf_mem_cons] at hexplored
  exact ⟨hexplored.skip hid, hcontents⟩

/-- A template that is read adds what it refers to at the end of the list. -/
theorem Browsing.visit {initial : List UInt16} {templates : Templates} {id : UInt16}
    {rest : List UInt16} {tmpl : UdtTemplate} (h : Browsing read initial templates (id :: rest))
    (hread : read id = some tmpl) :
    Browsing read initial (templates.insert id tmpl)
      (rest ++ nestedIDs (templates.insert id tmpl) tmpl) := by
  obtain ⟨hexplored, hcontents⟩ := h
  rw [setOf_mem_cons] at hexplored
  have hfound : {x | x ∈ templates.insert id tmpl} = insert id {x | x ∈ templates} := by
    ext x
    exact AList.mem_insert templates
  have htodo : {x | x ∈ rest ++ nestedIDs (templates.insert id tmpl) tmpl} =
      {x | x ∈ rest} ∪ {x | x ∈ nestedIDs (templates.insert id tmpl) tmpl} := by
    ext x
    exact List.mem_append
  constructor
  · rw [hfound, htodo]
    apply hexplored.visit
    · intro nested hnested
      exact ⟨tmpl, hread, (mem_nestedIDs_iff.mp hnested).1⟩
    · rintro nested ⟨tmpl', hread', hfield⟩
      obtain rfl : tmpl = tmpl' := Option.some.inj (hread.symm.trans hread')
      by_cases hold : nested ∈ templates.insert id tmpl
      · exact .inl (hfound.le hold)
      · exact .inr (.inl (mem_nestedIDs_iff.mpr ⟨hfield, hold⟩))
  · intro x tmpl' hlookup
    by_cases hx : x = id
    · subst hx
      rw [AList.lookup_insert] at hlookup
      exact hlookup ▸ hread
    · rw [AList.lookup_insert_ne hx] at hlookup
      exact hcontents x tmpl' hlookup

/-- The loop ends with the error of the context or with nothing left to process. -/
theorem expand_browsing (ctxErr : Nat → Option String) (initial : List UInt16) (n : Nat)
    (templates : Templates) (toProcess : List UInt16)
    (h : Browsing read initial templates toProcess) :
    (∃ m err, ctxErr m = some err ∧ expand ctxErr read n templates toProcess = .error err) ∨
      ∃ result, expand ctxErr read n templates toProcess = .ok result ∧
        Browsing read initial result [] := by
  fun_induction expand ctxErr read n templates toProcess with
  | case1 n templates => exact .inr ⟨templates, rfl, h⟩
  | case2 n templates id rest err herr => exact .inl ⟨n, err, herr, rfl⟩
  | case3 n templates id rest herr hdone ih => exact ih (h.skip (.inl hdone))
  | case4 n templates id rest herr hnew hread ih => exact ih (h.skip (.inr hread))
  | case5 n templates id rest herr hnew tmpl hread ih => exact ih (h.visit hread)

/-- At the end exactly the templates that can be reached and read are there. -/
theorem Browsing.lookup_iff {initial : List UInt16} {templates : Templates}
    (h : Browsing read initial templates []) (id : UInt16) (tmpl : UdtTemplate) :
    templates.lookup id = some tmpl ↔
      read id = some tmpl ∧ Reachable (References read) {i | i ∈ initial} id := by
  have hexplored := h.explored
  have hempty : {x : UInt16 | x ∈ ([] : List UInt16)} = ∅ := by
    ext x
    simp
  rw [hempty] at hexplored
  have hdropped : ∀ a ∈ {id | read id = none}, ∀ b, ¬References read a b := by
    rintro a ha b ⟨tmpl, hread, -⟩
    rw [Set.mem_ofPred_eq, hread] at ha
    cases ha
  constructor
  · intro hlookup
    have hmem : id ∈ templates := AList.lookup_isSome.mp (by rw [hlookup]; rfl)
    exact ⟨h.contents id tmpl hlookup, hexplored.found_reachable id hmem⟩
  · rintro ⟨hread, hreach⟩
    have hnot : id ∉ {id | read id = none} := by
      rw [Set.mem_ofPred_eq, hread]
      nofun
    have hmem : id ∈ templates := (hexplored.exact hdropped hnot).mp hreach
    obtain ⟨tmpl', hlookup⟩ := Option.isSome_iff_exists.mp (AList.lookup_isSome.mpr hmem)
    rw [hlookup, ← hread, h.contents id tmpl' hlookup]

/-- The loop ends for every reference graph. Unless the context is cancelled, the map has exactly
the templates that can be read and that are reachable from the initial IDs, each as it was read;
the references of a template that cannot be read are not followed. -/
theorem expand_exact (ctxErr : Nat → Option String) (readUdtTemplate : UInt16 → Option UdtTemplate)
    (toProcess : List UInt16) :
    (∃ n err, ctxErr n = some err ∧
      expand ctxErr readUdtTemplate 0 ∅ toProcess = .error err) ∨
    ∃ templates, expand ctxErr readUdtTemplate 0 ∅ toProcess = .ok templates ∧
      ∀ id tmpl, templates.lookup id = some tmpl ↔ readUdtTemplate id = some tmpl ∧
        Reachable (References readUdtTemplate) {i | i ∈ toProcess} id := by
  obtain herr | ⟨templates, hok, hbrowsing⟩ :=
    expand_browsing ctxErr toProcess 0 ∅ toProcess (browsing_start readUdtTemplate toProcess)
  · exact .inl herr
  · exact .inr ⟨templates, hok, hbrowsing.lookup_iff⟩

/-! ## Names -/

theorem lookup_resolveNames (templates : Templates) (id : UInt16) :
    (resolveNames templates).lookup id = (templates.lookup id).map (resolveTemplate templates) :=
  List.dlookup_map₂ id

theorem resolveField_congr {templates templates' : Templates}
    (h : ∀ id, templates.lookup id = templates'.lookup id) :
    resolveField templates = resolveField templates' := by
  funext field
  rw [resolveField, resolveField, h]

/-- A browse without an error is a finished worklist with its names resolved. -/
theorem lookup_of_browseTemplates {ids : List UInt16} {result : Templates}
    (h : browseTemplates ctxErr read ids = .ok result) :
    ∃ templates, Browsing read ids templates [] ∧ result = resolveNames templates := by
  obtain ⟨n, err, -, herr⟩ | ⟨templates, hok, hbrowsing⟩ :=
    expand_browsing ctxErr ids 0 ∅ ids (browsing_start read ids)
  · rw [browseTemplates, herr] at h
    cases h
  · rw [browseTemplates, hok] at h
    cases h
    exact ⟨templates, hbrowsing, rfl⟩

/-- The map gives the IDs of the tags in an arbitrary order, and the browse does not depend on it. -/
theorem browseTemplates_order {tags : List TagEntry} {ids ids' : List UInt16}
    {result result' : Templates} (hids : ∀ id, id ∈ ids ↔ id ∈ templateIDs tags)
    (hids' : ∀ id, id ∈ ids' ↔ id ∈ templateIDs tags)
    (h : browseTemplates ctxErr read ids = .ok result)
    (h' : browseTemplates ctxErr read ids' = .ok result') (id : UInt16) :
    result.lookup id = result'.lookup id := by
  obtain ⟨templates, hbrowsing, rfl⟩ := lookup_of_browseTemplates h
  obtain ⟨templates', hbrowsing', rfl⟩ := lookup_of_browseTemplates h'
  have hroots : {i | i ∈ ids} = {i | i ∈ ids'} := by
    ext i
    exact (hids i).trans (hids' i).symm
  have hsame : ∀ i, templates.lookup i = templates'.lookup i := by
    intro i
    apply Option.ext
    intro tmpl
    rw [hbrowsing.lookup_iff, hbrowsing'.lookup_iff, hroots]
  rw [lookup_resolveNames, lookup_resolveNames, hsame]
  congr 1
  funext tmpl
  rw [resolveTemplate, resolveTemplate, resolveField_congr hsame]

/-- A pump with a motor. There is nothing to read for other IDs. -/
def plantTemplates : UInt16 → Option UdtTemplate
  | 1 => some ⟨"Pump", [⟨"drive", ⟨0x8002⟩, ""⟩]⟩
  | 2 => some ⟨"Motor", [⟨"speed", ⟨0x00CA⟩, ""⟩]⟩
  | _ => none

def plantTags : List TagEntry := [⟨"pump", 0x8001⟩, ⟨"motor", 0x8002⟩, ⟨"valve", 0x8003⟩]

theorem browseTemplates_plant (ids : List UInt16) :
    ∃ result, browseTemplates (fun _ => none) plantTemplates ids = .ok result := by
  obtain ⟨n, err, herr, -⟩ | ⟨templates, hok, -⟩ :=
    expand_browsing (fun _ => none) ids 0 ∅ ids (browsing_start plantTemplates ids)
  · cases herr
  · exact ⟨_, by rw [browseTemplates, hok]; rfl⟩

theorem browseTemplates_order_plant :
    ∃ result result', browseTemplates (fun _ => none) plantTemplates [1, 2, 3] = .ok result ∧
      browseTemplates (fun _ => none) plantTemplates [3, 1, 2] = .ok result' ∧
      ∀ id, result.lookup id = result'.lookup id := by
  obtain ⟨result, h⟩ := browseTemplates_plant [1, 2, 3]
  obtain ⟨result', h'⟩ := browseTemplates_plant [3, 1, 2]
  have htags : templateIDs plantTags = {1, 2, 3} := by decide
  have hids : ∀ id : UInt16, id ∈ [1, 2, 3] ↔ id ∈ templateIDs plantTags := by simp [htags]
  have hids' : ∀ id : UInt16, id ∈ [3, 1, 2] ↔ id ∈ templateIDs plantTags := by
    have hperm : List.Perm [3, 1, 2] [(1 : UInt16), 2, 3] := by decide
    exact fun id => hperm.mem_iff.trans (hids id)
  exact ⟨result, result', h, h', browseTemplates_order hids hids' h h'⟩

end EthernetIpTemplates
