import Mathlib.Data.List.Permutation
import Tentacle.UdtAssembly

/-!
# Panics of the UDT assembler

The comparison of two member values is one of two `interface{}`, which panics when both are arrays
or both are objects. The callback of a timer has no recover, so a panic ends the process. The loop
over the members is one over a map, whose order is any.
-/

namespace UdtPanics

open GoValues Rbe UdtAssembly

variable {F64 : Type}

/-- Two values of one type that Go does not compare. -/
def uncomparable : Json F64 → Json F64 → Bool
  | .array _, .array _ => true
  | .object _, .object _ => true
  | _, _ => false

section Loop

variable [GoFloat64 F64]

/-- `==` of two `interface{}`; `none` is a panic. -/
def compare (v w : Json F64) : Option Bool :=
  if uncomparable v w then none else some (interfaceEqual v w)

def exceedsDeadband (a : Assembler F64) (lastValues : GoMap String (Json F64)) (memberName : String)
    (newVal : Json F64) : Option Bool :=
  exceedsBy compare a lastValues memberName newVal

/-- The loop over the members in an order, and the one over the members that were removed. -/
def anyMemberExceedsDeadband (a : Assembler F64) (lastValues current : GoMap String (Json F64)) :
    List String → Option Bool
  | [] => some (lastValues.entries.any (fun e => (current.lookup e.1).isNone))
  | memberName :: order =>
    match current.lookup memberName with
    | none => anyMemberExceedsDeadband a lastValues current order
    | some newVal =>
      match exceedsDeadband a lastValues memberName newVal with
      | some false => anyMemberExceedsDeadband a lastValues current order
      | r => r

/-- The members are compared: neither the maximum nor the minimum time decides. -/
def comparesMembers (a : Assembler F64) (nowMs : Int) : Bool :=
  !a.disableRBE && 0 < a.lastPubTime && !maxTimeOver a nowMs && !minTimeLeft a nowMs &&
    a.lastValues.isSome && !a.memberDeadbands.entries.isEmpty

/-- The RBE check of `publish`, where `text` is `json.Marshal` of an object. -/
def rbeCheck (text : List (String × Json F64) → String) (a : Assembler F64)
    (assembled : GoMap String (Json F64)) (nowMs : Int) (order : List String) : Option Verdict :=
  rbeCheckBy (fun lastValues => anyMemberExceedsDeadband a lastValues assembled order)
    (fun last => text (marshal assembled) = text last) a nowMs

end Loop

/-! ## The process -/

/-- The process of the gateway, as far as the assembler goes. -/
inductive Process (F64 : Type) where
  | running (s : System F64)
  | panicked

inductive Action (F64 : Type) where
  | setMember (memberName : String) (value : Json F64)
  | expire (timer : Nat)
  | callback (nowMs : Int) (order : List String)

section Steps

variable [GoFloat64 F64] (text : List (String × Json F64) → String)

/-- A started callback runs, over the members in an order. -/
def publish (s : System F64) (nowMs : Int) (order : List String) : Process F64 :=
  if s.assembler.dirty = false then .running s
  else
    let assembled := assemble s.assembler.toUdtAssembler
    match rbeCheck text s.assembler assembled nowMs order with
    | none => .panicked
    | some verdict => .running (settle s assembled nowMs verdict)

def step : Process F64 → Action F64 → Option (Process F64)
  | .running s, .setMember memberName value => some (.running (setMember s memberName value))
  | .running s, .expire timer =>
    if timer ∈ s.armed then
      some (.running { s with armed := s.armed.erase timer, started := s.started + 1 })
    else none
  | .running s, .callback nowMs order =>
    if s.started ≠ 0 ∧ order.Perm (assemble s.assembler.toUdtAssembler).keys then
      some (publish text { s with started := s.started - 1 } nowMs order)
    else none
  | .panicked, _ => none

end Steps

/-! ## When the loop panics -/

section Panics

variable [GoFloat64 F64]

/-- The change of a member lets the message out. -/
def exceeds (a : Assembler F64) (lastValues current : GoMap String (Json F64))
    (memberName : String) : Prop :=
  ∃ v, current.lookup memberName = some v ∧ exceedsDeadband a lastValues memberName v = some true

/-- The member had an array or an object, and has one again. -/
def clashes (lastValues current : GoMap String (Json F64)) (memberName : String) : Prop :=
  ∃ v w, current.lookup memberName = some v ∧ lastValues.lookup memberName = some w ∧
    uncomparable v w = true

/-- A comparison panics exactly if both values are of a kind that cannot be compared. -/
theorem exceedsDeadband_eq_none_iff (a : Assembler F64) (lastValues : GoMap String (Json F64))
    (memberName : String) (v : Json F64) :
    exceedsDeadband a lastValues memberName v = none ↔
      ∃ w, lastValues.lookup memberName = some w ∧ uncomparable v w = true := by
  unfold exceedsDeadband exceedsBy
  cases lastValues.lookup memberName with
  | none => simp
  | some w =>
    have hcompare : (compare v w).map (!·) = none ↔ uncomparable v w = true := by
      simp [compare]
    have hnumber : ∀ x, toFloat64 v = some x → uncomparable v w = false := by
      intro x hx
      cases v with
      | array xs => cases hx
      | object fields => cases hx
      | null | bool | number | string => rfl
    simp only [Option.some.injEq, exists_eq_left']
    split
    · rename_i hv _
      simp [hnumber _ hv]
    · exact hcompare

/-- The loop panics at a member that clashes, when no member before it lets the message out. -/
theorem anyMemberExceedsDeadband_eq_none_iff (a : Assembler F64)
    (lastValues current : GoMap String (Json F64)) (order : List String) :
    anyMemberExceedsDeadband a lastValues current order = none ↔
      ∃ front memberName back, order = front ++ memberName :: back ∧
        (∀ m ∈ front, ¬ exceeds a lastValues current m) ∧
        clashes lastValues current memberName := by
  induction order with
  | nil => simp [anyMemberExceedsDeadband]
  | cons m order ih =>
    -- the split of the rest, when the first member lets the loop go on
    have hsplit : (∃ front memberName back, m :: order = front ++ memberName :: back ∧
        (∀ x ∈ front, ¬ exceeds a lastValues current x) ∧ clashes lastValues current memberName) ↔
        clashes lastValues current m ∨ (¬ exceeds a lastValues current m ∧
          ∃ front memberName back, order = front ++ memberName :: back ∧
            (∀ x ∈ front, ¬ exceeds a lastValues current x) ∧
            clashes lastValues current memberName) := by
      constructor
      · rintro ⟨front, name, back, heq, hfront, hclash⟩
        cases front with
        | nil =>
          cases heq
          exact .inl hclash
        | cons x front =>
          cases heq
          exact .inr ⟨hfront _ List.mem_cons_self, front, name, back, rfl,
            fun y hy => hfront y (List.mem_cons_of_mem _ hy), hclash⟩
      · rintro (hclash | ⟨hm, front, name, back, rfl, hfront, hclash⟩)
        · exact ⟨[], m, order, rfl, nofun, hclash⟩
        · refine ⟨m :: front, name, back, rfl, ?_, hclash⟩
          intro y hy
          rcases List.mem_cons.mp hy with rfl | hy
          · exact hm
          · exact hfront y hy
    rw [hsplit, ← ih, anyMemberExceedsDeadband]
    cases hv : current.lookup m with
    | none => simp [clashes, exceeds, hv]
    | some v =>
      have hnone := exceedsDeadband_eq_none_iff a lastValues m v
      cases hr : exceedsDeadband a lastValues m v with
      | none =>
        obtain ⟨w, hw, hclash⟩ := hnone.mp hr
        have hyes : clashes lastValues current m := ⟨v, w, hv, hw, hclash⟩
        simp [hr, hyes]
      | some b =>
        rw [hr] at hnone
        have hno : ¬ clashes lastValues current m := by
          rintro ⟨v', w, hv', hw, hclash⟩
          cases hv.symm.trans hv'
          exact absurd (hnone.mpr ⟨w, hw, hclash⟩) nofun
        cases b with
        | true => simp [exceeds, hv, hr, hno]
        | false => simp [exceeds, hv, hr, hno]

/-- A check panics exactly if it comes to its members and one of them does. -/
theorem rbeCheck_eq_none_iff (text : List (String × Json F64) → String) (a : Assembler F64)
    (assembled : GoMap String (Json F64)) (nowMs : Int) (order : List String) :
    rbeCheck text a assembled nowMs order = none ↔
      comparesMembers a nowMs = true ∧ ∃ lastValues, a.lastValues = some lastValues ∧
        anyMemberExceedsDeadband a lastValues assembled order = none := by
  unfold rbeCheck rbeCheckBy comparesMembers
  by_cases hrbe : a.disableRBE = false ∧ 0 < a.lastPubTime
  · rw [if_pos hrbe]
    cases maxTimeOver a nowMs with
    | true => simp
    | false =>
      cases minTimeLeft a nowMs with
      | true => simp
      | false =>
        cases a.lastValues with
        | none =>
          simp only [Bool.false_eq_true, if_false]
          split <;> simp
        | some lastValues =>
          cases a.memberDeadbands.entries with
          | nil =>
            simp only [Bool.false_eq_true, if_false]
            split <;> simp
          | cons e es => simp [hrbe]
  · rw [if_neg hrbe]
    simp only [reduceCtorEq, false_iff]
    rintro ⟨hcompares, -⟩
    simp only [Bool.and_eq_true, Bool.not_eq_true', decide_eq_true_eq] at hcompares
    exact hrbe hcompares.1.1.1.1

/-- What keeps a callback from a panic: it does not get to comparing the members, or no member that
clashes comes before one that lets the message out. -/
def Comparable : Process F64 → Action F64 → Prop
  | .running s, .callback nowMs order =>
    s.assembler.dirty = true → comparesMembers s.assembler nowMs = true →
      ∀ lastValues, s.assembler.lastValues = some lastValues →
      ∀ front memberName back, order = front ++ memberName :: back →
        (∀ m ∈ front, ¬ exceeds s.assembler lastValues (assemble s.assembler.toUdtAssembler) m) →
          ¬ clashes lastValues (assemble s.assembler.toUdtAssembler) memberName
  | _, _ => True

variable {text : List (String × Json F64) → String}

/-- A callback panics exactly if there is something to publish and its check does. -/
theorem publish_eq_panicked_iff (s : System F64) (nowMs : Int) (order : List String) :
    publish text s nowMs order = .panicked ↔ s.assembler.dirty = true ∧
      rbeCheck text s.assembler (assemble s.assembler.toUdtAssembler) nowMs order = none := by
  unfold publish
  cases hdirty : s.assembler.dirty with
  | false => simp
  | true =>
    cases hr : rbeCheck text s.assembler (assemble s.assembler.toUdtAssembler) nowMs order with
    | none => simp [hr]
    | some verdict => simp [hr]

/-- A callback does not panic exactly if what it compares can be compared. -/
theorem publish_ne_panicked_iff (s : System F64) (nowMs : Int) (order : List String) :
    publish text s nowMs order ≠ .panicked ↔
      Comparable (.running s) (.callback nowMs order) := by
  rw [ne_eq, publish_eq_panicked_iff, rbeCheck_eq_none_iff]
  simp only [anyMemberExceedsDeadband_eq_none_iff, Comparable]
  constructor
  · intro h hdirty hcompares last hlast front name back heq hfront hclash
    exact h ⟨hdirty, hcompares, last, hlast, front, name, back, heq, hfront, hclash⟩
  · rintro h ⟨hdirty, hcompares, last, hlast, front, name, back, heq, hfront, hclash⟩
    exact h hdirty hcompares last hlast front name back heq hfront hclash

/-- A step leaves the process running exactly if it was, and compares what can be compared. -/
theorem step_ne_panicked_iff {p t : Process F64} {a : Action F64} (ht : step text p a = some t) :
    t ≠ .panicked ↔ p ≠ .panicked ∧ Comparable p a := by
  cases p with
  | panicked => cases ht
  | running s =>
    cases a with
    | setMember memberName value =>
      cases ht
      simp [Comparable]
    | expire timer =>
      rw [step] at ht
      split at ht <;> cases ht
      simp [Comparable]
    | callback nowMs order =>
      rw [step] at ht
      split at ht <;> cases ht
      rw [publish_ne_panicked_iff]
      simp [Comparable]

/-- A run of member updates, timers and publishes does not panic exactly when no publish in it
compares two arrays or two objects. -/
theorem run_ne_panicked_iff (a : Assembler F64) {as : List (Action F64)} {t : Process F64}
    (hrun : Runs.run (step text) (.running { assembler := a }) as = some t) :
    t ≠ .panicked ↔ Runs.Meets (step text) Comparable (.running { assembler := a }) as := by
  have hinv : ∀ (s : Process F64) a t, True → step text s a = some t → True :=
    fun _ _ _ _ _ => trivial
  have h := Runs.run_iff_meets hinv (fun _ _ _ _ ht => step_ne_panicked_iff ht) trivial hrun
  simpa using h

/-! ## Scalar members -/

/-- Where the values can be compared the check is the one that has no panic. -/
theorem exceedsDeadband_eq (a : Assembler F64) {lastValues : GoMap String (Json F64)}
    {memberName : String} {v : Json F64}
    (h : ∀ w, lastValues.lookup memberName = some w → uncomparable v w = false) :
    exceedsDeadband a lastValues memberName v =
      some (UdtAssembly.exceedsDeadband a lastValues memberName v) := by
  unfold exceedsDeadband UdtAssembly.exceedsDeadband exceedsBy
  cases hw : lastValues.lookup memberName with
  | none => rfl
  | some w =>
    have hcompare : (!·) <$> compare v w = some (!interfaceEqual v w) := by
      simp [compare, h w hw]
    cases a.memberDeadbands.lookup memberName with
    | none => exact hcompare
    | some db =>
      cases toFloat64 v with
      | none => exact hcompare
      | some x =>
        dsimp only
        cases toFloat64 w with
        | none => exact hcompare
        | some y => rfl

/-- Without a clash the order does not matter, and the loop is the one that has no panic. -/
theorem anyMemberExceedsDeadband_eq {a : Assembler F64}
    {lastValues current : GoMap String (Json F64)} {order : List String}
    (horder : order.Perm current.keys) (h : ∀ m, ¬ clashes lastValues current m) :
    anyMemberExceedsDeadband a lastValues current order =
      some (UdtAssembly.anyMemberExceedsDeadband a lastValues current) := by
  have hloop : ∀ order : List String, anyMemberExceedsDeadband a lastValues current order =
      some (order.any (fun m => (current.lookup m).any
        (UdtAssembly.exceedsDeadband a lastValues m)) ||
          lastValues.entries.any (fun e => (current.lookup e.1).isNone)) := by
    intro order
    induction order with
    | nil => rfl
    | cons m order ih =>
      rw [anyMemberExceedsDeadband]
      cases hv : current.lookup m with
      | none => simp [ih, hv]
      | some v =>
        have hscalar : ∀ w, lastValues.lookup m = some w → uncomparable v w = false := by
          intro w hw
          by_contra hclash
          exact h m ⟨v, w, hv, hw, by simpa using hclash⟩
        have hbody := exceedsDeadband_eq a hscalar
        simp only [hbody, List.any_cons, hv, Option.any_some]
        cases UdtAssembly.exceedsDeadband a lastValues m v with
        | true => rfl
        | false => exact ih
  have hkeys : order.any (fun m => (current.lookup m).any
      (UdtAssembly.exceedsDeadband a lastValues m)) =
        current.entries.any (fun e => UdtAssembly.exceedsDeadband a lastValues e.1 e.2) := by
    rw [Bool.eq_iff_iff, List.any_eq_true, List.any_eq_true]
    constructor
    · rintro ⟨m, -, hm⟩
      cases hv : current.lookup m with
      | none => simp [hv] at hm
      | some v =>
        rw [hv, Option.any_some] at hm
        exact ⟨⟨m, v⟩, AList.mem_lookup_iff.mp hv, hm⟩
    · rintro ⟨⟨m, v⟩, hmem, hexceeds⟩
      have hv : current.lookup m = some v := AList.mem_lookup_iff.mpr hmem
      refine ⟨m, horder.mem_iff.mpr (List.mem_map_of_mem hmem), ?_⟩
      simpa [hv] using hexceeds
  rw [hloop, hkeys]
  rfl

/-- Without a clash a callback is the one that has no panic. -/
theorem publish_eq {s : System F64} {nowMs : Int} {order : List String}
    (horder : order.Perm (assemble s.assembler.toUdtAssembler).keys)
    (hclash : ∀ last, s.assembler.lastValues = some last →
      ∀ m, ¬ clashes last (assemble s.assembler.toUdtAssembler) m)
    (htext : ∀ last, s.assembler.lastJSON = some last →
      decide (text (marshal (assemble s.assembler.toUdtAssembler)) = text last) =
        sameText (marshal (assemble s.assembler.toUdtAssembler)) last) :
    publish text s nowMs order = .running (UdtAssembly.publish s nowMs) := by
  have hcheck : rbeCheck text s.assembler (assemble s.assembler.toUdtAssembler) nowMs order =
      some (UdtAssembly.rbeCheck s.assembler (assemble s.assembler.toUdtAssembler) nowMs) := by
    have hjson : s.assembler.lastJSON.any (fun last =>
        text (marshal (assemble s.assembler.toUdtAssembler)) = text last) =
        s.assembler.lastJSON.any (sameText (marshal (assemble s.assembler.toUdtAssembler))) := by
      cases hlast : s.assembler.lastJSON with
      | none => rfl
      | some last => exact htext last hlast
    rw [rbeCheck, UdtAssembly.rbeCheck, rbeCheckBy, rbeCheckBy, hjson]
    split
    · split
      · rfl
      · split
        · rfl
        · cases hlast : s.assembler.lastValues with
          | none => rfl
          | some last =>
            cases s.assembler.memberDeadbands.entries with
            | nil => rfl
            | cons e es =>
              simp only [anyMemberExceedsDeadband_eq horder (hclash last hlast)]
              rfl
    · rfl
  unfold publish UdtAssembly.publish
  simp only [hcheck]
  cases s.assembler.dirty <;> rfl

end Panics

/-! ## A member that is an array -/

/-- The mode of the pump comes as an array, twice. -/
def arrayRun : List (Action ℚ) :=
  [.setMember "mode" (.array [.number 1]), .expire 0, .callback 1000 ["mode"],
    .setMember "mode" (.array [.number 1]), .expire 1, .callback 2000 ["mode"]]

/-- The array comes once, and the next value is a text. -/
def textRun : List (Action ℚ) :=
  [.setMember "mode" (.array [.number 1]), .expire 0, .callback 1000 ["mode"],
    .setMember "mode" (.string "auto"), .expire 1, .callback 2000 ["mode"]]

def noText : List (String × Json ℚ) → String := fun _ => ""

def isPanicked : Process F64 → Bool
  | .running _ => false
  | .panicked => true

theorem run_ne_panicked_textRun :
    ∃ t, Runs.run (step noText) (.running { assembler := pump }) textRun = some t ∧
      t ≠ .panicked ∧
        Runs.Meets (step noText) Comparable (.running { assembler := pump }) textRun := by
  have hend : (Runs.run (step noText) (.running { assembler := pump }) textRun).map isPanicked =
      some false := by decide +kernel
  obtain ⟨t, hrun, ht⟩ := Option.map_eq_some_iff.mp hend
  have hne : t ≠ .panicked := by
    rintro rfl
    cases ht
  exact ⟨t, hrun, hne, (run_ne_panicked_iff pump hrun).mp hne⟩

theorem arrayRun_panicked :
    ¬ ∀ (a : Assembler ℚ) (as : List (Action ℚ)) (t : Process ℚ),
      Runs.run (step noText) (.running { assembler := a }) as = some t → t ≠ .panicked := by
  intro h
  have hend : (Runs.run (step noText) (.running { assembler := pump }) arrayRun).map isPanicked =
      some true := by decide +kernel
  obtain ⟨t, hrun, ht⟩ := Option.map_eq_some_iff.mp hend
  cases t with
  | running s => cases ht
  | panicked => exact h pump arrayRun _ hrun rfl

end UdtPanics
