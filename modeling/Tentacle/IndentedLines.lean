import Mathlib.Data.List.Basic

/-!
# Lines with indentation

A text in which indentation makes the blocks, as a list of lines with their depths. A header is
followed by a deeper line, and a line that goes on with a conditional belongs to one before it at
its own depth. Lines that are put together from headers and their blocks have a `Shape`: whether
they are well structured depends on the lines before them only through one bit.
-/

namespace IndentedLines

/-- What a line is for the structure: an ordinary statement, the header of a block, or one of the
headers of a conditional. -/
inductive Role where
  | plain
  | header
  | if_
  | elif
  | else_
  deriving DecidableEq, Repr

def Role.isHeader : Role → Bool
  | .plain => false
  | _ => true

/-- An `elif` or `else` may come after the block of this header. -/
def Role.opens : Role → Bool
  | .if_ => true
  | .elif => true
  | _ => false

def Role.continues : Role → Bool
  | .elif => true
  | .else_ => true
  | _ => false

theorem Role.isHeader_of_opens {r : Role} (h : r.opens = true) : r.isHeader = true := by
  cases r <;> simp_all [Role.opens, Role.isHeader]

abbrev Line (α : Type) := Nat × α

variable {α : Type} (role : α → Role)

/-- Every header is followed by a deeper line, and before every `elif` and `else` stands an `if`
or `elif` of the same depth with only deeper lines between. -/
structure BlockStructured (lines : List (Line α)) : Prop where
  followed : ∀ front l rest, lines = front ++ l :: rest → (role l.2).isHeader = true →
    ∃ next rest', rest = next :: rest' ∧ l.1 < next.1
  belongs : ∀ front l rest, lines = front ++ l :: rest → (role l.2).continues = true →
    ∃ front' opener body, front = front' ++ opener :: body ∧ (role opener.2).opens = true ∧
      opener.1 = l.1 ∧ ∀ x ∈ body, l.1 < x.1

def Followed : List (Line α) → Prop
  | [] => True
  | l :: rest =>
    ((role l.2).isHeader = true → ∃ next rest', rest = next :: rest' ∧ l.1 < next.1) ∧ Followed rest

/-- Of the lines before, the last first: the first that is not deeper is an open conditional. -/
def attached (depth : Nat) : List (Line α) → Bool
  | [] => false
  | l :: before =>
    if depth < l.1 then attached depth before else l.1 == depth && (role l.2).opens

def Belongs (before : List (Line α)) : List (Line α) → Prop
  | [] => True
  | l :: rest =>
    ((role l.2).continues = true → attached role l.1 before = true) ∧ Belongs (l :: before) rest

/-- Each header has a line behind it that is indented further. -/
theorem followed_iff (lines : List (Line α)) :
    Followed role lines ↔ ∀ front l rest, lines = front ++ l :: rest →
      (role l.2).isHeader = true → ∃ next rest', rest = next :: rest' ∧ l.1 < next.1 := by
  induction lines with
  | nil => simp [Followed]
  | cons l lines ih =>
    rw [Followed, ih]
    constructor
    · rintro ⟨hfirst, hrest⟩ front l' rest hsplit
      cases front with
      | nil =>
        cases hsplit
        exact hfirst
      | cons x front =>
        cases hsplit
        exact hrest front l' rest rfl
    · intro h
      refine ⟨h [] l lines rfl, ?_⟩
      rintro front l' rest rfl
      exact h (l :: front) l' rest rfl

/-- A continuation belongs to the last opener of its depth, with only deeper lines between. -/
theorem attached_iff (depth : Nat) (before : List (Line α)) :
    attached role depth before = true ↔ ∃ front' opener body,
      before.reverse = front' ++ opener :: body ∧ (role opener.2).opens = true ∧
        opener.1 = depth ∧ ∀ x ∈ body, depth < x.1 := by
  induction before with
  | nil => simp [attached]
  | cons l before ih =>
    rw [attached, List.reverse_cons]
    by_cases hdeep : depth < l.1
    · rw [if_pos hdeep, ih]
      constructor
      · rintro ⟨front', opener, body, hsplit, hopens, hdepth, hbody⟩
        refine ⟨front', opener, body ++ [l], by rw [hsplit]; simp, hopens, hdepth, ?_⟩
        intro x hx
        obtain hx | hx := List.mem_append.mp hx
        · exact hbody x hx
        · rw [List.mem_singleton.mp hx]
          exact hdeep
      · rintro ⟨front', opener, body, hsplit, hopens, hdepth, hbody⟩
        obtain rfl | ⟨body', y, rfl⟩ := List.eq_nil_or_concat body
        · have hlast : l = opener := by simpa using (List.append_inj' hsplit rfl).2
          rw [hlast] at hdeep
          omega
        · rw [List.concat_eq_append, ← List.cons_append, ← List.append_assoc] at hsplit
          obtain ⟨hfront, -⟩ := List.append_inj' hsplit rfl
          exact ⟨front', opener, body', hfront, hopens, hdepth,
            fun x hx => hbody x (by simp [hx])⟩
    · rw [if_neg hdeep]
      constructor
      · intro h
        simp only [Bool.and_eq_true, beq_iff_eq] at h
        exact ⟨before.reverse, l, [], rfl, h.2, h.1, by simp⟩
      · rintro ⟨front', opener, body, hsplit, hopens, hdepth, hbody⟩
        obtain rfl | ⟨body', y, rfl⟩ := List.eq_nil_or_concat body
        · have hlast : l = opener := by simpa using (List.append_inj' hsplit rfl).2
          simp [hlast, hdepth, hopens]
        · rw [List.concat_eq_append, ← List.cons_append, ← List.append_assoc] at hsplit
          have hlast : l = y := by simpa using (List.append_inj' hsplit rfl).2
          have := hbody y (by simp)
          rw [hlast] at hdeep
          omega

/-- Each continuation is attached to what stands before it. -/
theorem belongs_iff (before lines : List (Line α)) :
    Belongs role before lines ↔ ∀ front l rest, lines = front ++ l :: rest →
      (role l.2).continues = true → attached role l.1 (front.reverse ++ before) = true := by
  induction lines generalizing before with
  | nil => simp [Belongs]
  | cons l lines ih =>
    rw [Belongs, ih]
    constructor
    · rintro ⟨hfirst, hrest⟩ front l' rest hsplit
      cases front with
      | nil =>
        cases hsplit
        exact hfirst
      | cons x front =>
        cases hsplit
        simpa using hrest front l' rest rfl
    · intro h
      refine ⟨h [] l lines rfl, ?_⟩
      rintro front l' rest rfl
      simpa using h (l :: front) l' rest rfl

theorem blockStructured_iff (lines : List (Line α)) :
    BlockStructured role lines ↔ Followed role lines ∧ Belongs role [] lines := by
  rw [followed_iff, belongs_iff]
  simp only [List.append_nil, attached_iff, List.reverse_reverse]
  exact ⟨fun h => ⟨h.followed, h.belongs⟩, fun h => ⟨h.1, h.2⟩⟩

/-! ## Shapes -/

/-- Lines from one depth on: the condition under which they are well structured and what they
leave open, both by whether a conditional is open before them. -/
structure Shape (depth : Nat) (lines : List (Line α)) (empty : Prop) (ok : Bool → Prop)
    (after : Bool → Bool) : Prop where
  deep : ∀ l ∈ lines, depth ≤ l.1
  first : ∀ l rest, lines = l :: rest → l.1 = depth
  empty_iff : lines = [] ↔ empty
  sound : ∀ before,
    Followed role lines ∧ Belongs role before lines ↔ ok (attached role depth before)
  after_eq : ∀ before,
    attached role depth (lines.reverse ++ before) = after (attached role depth before)

variable {role}

/-- A header at the end of deeper lines is followed by nothing that is deeper than it. -/
theorem followed_append {depth : Nat} {xs ys : List (Line α)} (hxs : ∀ l ∈ xs, depth ≤ l.1)
    (hys : ∀ l rest, ys = l :: rest → l.1 ≤ depth) :
    Followed role (xs ++ ys) ↔ Followed role xs ∧ Followed role ys := by
  induction xs with
  | nil => simp [Followed]
  | cons l xs ih =>
    rw [List.cons_append, Followed, Followed, ih fun x hx => hxs x (by simp [hx]), and_assoc]
    apply and_congr_left
    rintro -
    apply imp_congr_right
    rintro -
    cases xs with
    | cons x xs => simp
    | nil =>
      have hl := hxs l (by simp)
      constructor
      · rintro ⟨next, rest, hnext, hlt⟩
        have := hys next rest hnext
        omega
      · rintro ⟨next, rest, hnext, -⟩
        cases hnext

theorem belongs_append (before xs ys : List (Line α)) :
    Belongs role before (xs ++ ys) ↔
      Belongs role before xs ∧ Belongs role (xs.reverse ++ before) ys := by
  induction xs generalizing before with
  | nil => simp [Belongs]
  | cons l xs ih => simp [Belongs, ih, and_assoc]

/-- Deeper lines do not hide what is before them. -/
theorem attached_append {depth : Nat} {xs : List (Line α)} (h : ∀ l ∈ xs, depth < l.1)
    (before : List (Line α)) : attached role depth (xs ++ before) = attached role depth before := by
  induction xs with
  | nil => rfl
  | cons l xs ih =>
    rw [List.cons_append, attached, if_pos (h l (by simp)), ih fun x hx => h x (by simp [hx])]

theorem Shape.nil (depth : Nat) : Shape role depth [] True (fun _ => True) id :=
  ⟨by simp, by simp, by simp, by simp [Followed, Belongs], by simp⟩

theorem Shape.congr {depth : Nat} {lines : List (Line α)} {empty empty' : Prop}
    {ok ok' : Bool → Prop} {after after' : Bool → Bool} (h : Shape role depth lines empty ok after)
    (hempty : empty ↔ empty') (hok : ∀ o, ok o ↔ ok' o) (hafter : ∀ o, after o = after' o) :
    Shape role depth lines empty' ok' after' :=
  ⟨h.deep, h.first, h.empty_iff.trans hempty, fun before => (h.sound before).trans (hok _),
    fun before => (h.after_eq before).trans (hafter _)⟩

/-- Two blocks of one depth make a block, where the first leaves what the second needs. -/
theorem Shape.append {depth : Nat} {xs ys : List (Line α)} {empty empty' : Prop}
    {ok ok' : Bool → Prop} {after after' : Bool → Bool} (hx : Shape role depth xs empty ok after)
    (hy : Shape role depth ys empty' ok' after') :
    Shape role depth (xs ++ ys) (empty ∧ empty') (fun o => ok o ∧ ok' (after o))
      (fun o => after' (after o)) := by
  constructor
  · intro l hl
    obtain hl | hl := List.mem_append.mp hl
    · exact hx.deep l hl
    · exact hy.deep l hl
  · intro l rest hsplit
    cases xs with
    | nil => exact hy.first l rest hsplit
    | cons x xs =>
      cases hsplit
      exact hx.first _ _ rfl
  · rw [List.append_eq_nil_iff, hx.empty_iff, hy.empty_iff]
  · intro before
    rw [followed_append hx.deep fun l rest h => Nat.le_of_eq (hy.first l rest h), belongs_append,
      ← hx.sound before, ← hx.after_eq before, ← hy.sound]
    exact and_and_and_comm
  · intro before
    rw [List.reverse_append, List.append_assoc, hy.after_eq, hx.after_eq]

/-- An ordinary line closes what was open. -/
theorem Shape.line {depth : Nat} {text : α} (h : role text = .plain) :
    Shape role depth [(depth, text)] False (fun _ => True) (fun _ => false) := by
  constructor
  · simp
  · rintro l rest ⟨⟩
    rfl
  · simp
  · intro before
    simp [Followed, Belongs, h, Role.isHeader, Role.continues]
  · intro before
    simp [attached, h, Role.opens]

/-- A header with its block. -/
theorem Shape.block {depth : Nat} {text : α} {body : List (Line α)} {empty : Prop}
    {ok : Bool → Prop} {after : Bool → Bool} (h : (role text).isHeader = true)
    (hbody : Shape role (depth + 1) body empty ok after) :
    Shape role depth ((depth, text) :: body) False
      (fun o => ((role text).continues = true → o = true) ∧ ¬ empty ∧ ok false)
      (fun _ => (role text).opens) := by
  have hdeep : ∀ l ∈ body, depth < l.1 := fun l hl => hbody.deep l hl
  constructor
  · intro l hl
    obtain rfl | hl := List.mem_cons.mp hl
    · exact Nat.le_refl _
    · exact Nat.le_of_lt (hdeep l hl)
  · rintro l rest ⟨⟩
    rfl
  · simp
  · intro before
    have hclosed : attached role (depth + 1) ((depth, text) :: before) = false := by
      rw [attached, if_neg (by omega)]
      simp
    have hnext : (∃ next rest', body = next :: rest' ∧ depth < next.1) ↔ ¬ empty := by
      rw [← hbody.empty_iff]
      constructor
      · rintro ⟨next, rest', rfl, -⟩
        simp
      · intro hne
        obtain ⟨next, rest', rfl⟩ := List.exists_cons_of_ne_nil hne
        exact ⟨next, rest', rfl, hdeep next (by simp)⟩
    rw [Followed, Belongs, ← hclosed, ← hbody.sound]
    simp only [h, forall_const, hnext]
    constructor
    · rintro ⟨⟨hne, hf⟩, hc, hb⟩
      exact ⟨hc, hne, hf, hb⟩
    · rintro ⟨hc, hne, hf, hb⟩
      exact ⟨⟨hne, hf⟩, hc, hb⟩
  · intro before
    rw [List.reverse_cons, List.append_assoc, attached_append (by simpa using hdeep)]
    simp [attached]

end IndentedLines
