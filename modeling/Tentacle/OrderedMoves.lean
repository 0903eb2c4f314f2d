import Mathlib.Data.List.Basic

/-!
# Taking waiting items out of order

Items wait in a list and are taken from any position. The items of one class,
read through a filter, keep their order as long as every taken item is the
first waiting one of its class.
-/

namespace OrderedMoves

variable {α β : Type}

/-- The item at position `n` is the first one with its tag. -/
def First [DecidableEq β] (tag : α → β) (l : List α) (n : Nat) : Prop :=
  ∀ x ∈ l[n]?, ∀ y ∈ l.take n, tag y ≠ tag x

instance First.decidable [DecidableEq β] (tag : α → β) (l : List α) (n : Nat) :
    Decidable (First tag l n) := by
  unfold First
  infer_instance

theorem eraseIdx_split {l : List α} {n : Nat} {x : α} (h : l[n]? = some x) :
    l = l.take n ++ x :: l.drop (n + 1) ∧ l.eraseIdx n = l.take n ++ l.drop (n + 1) := by
  obtain ⟨hn, hx⟩ := List.getElem?_eq_some_iff.mp h
  refine ⟨?_, List.eraseIdx_eq_take_drop_succ l n⟩
  rw [← hx, ← List.drop_eq_getElem_cons hn, List.take_append_drop]

/-- Removing an item outside the class does not change what the class reads. -/
theorem filter_eraseIdx (p : α → Bool) {l : List α} {n : Nat} {x : α}
    (h : l[n]? = some x) (hp : p x = false) : (l.eraseIdx n).filter p = l.filter p := by
  obtain ⟨hl, he⟩ := eraseIdx_split h
  rw [he]
  conv_rhs => rw [hl]
  simp [hp]

/-- Moving the first waiting item of its class behind everything already taken
leaves the class unchanged as a sequence. -/
theorem filter_move [DecidableEq β] (tag : α → β) (c : β) (taken : List α) {l : List α}
    {n : Nat} {x : α} (h : l[n]? = some x) (hfirst : First tag l n) :
    (taken ++ [x] ++ l.eraseIdx n).filter (fun y => tag y = c) =
      (taken ++ l).filter (fun y => tag y = c) := by
  obtain ⟨hl, he⟩ := eraseIdx_split h
  by_cases hx : tag x = c
  · have hnone : (l.take n).filter (fun y => tag y = c) = [] := by
      rw [List.filter_eq_nil_iff]
      intro y hy hc
      exact hfirst x h y hy (by rw [of_decide_eq_true hc, hx])
    rw [he]
    conv_rhs => rw [hl]
    simp only [List.filter_append, List.filter_cons, List.filter_nil, hnone, hx]
    simp
  · rw [he]
    conv_rhs => rw [hl]
    simp [hx]

/-- An item that its class starts with is the first waiting one of the class. -/
theorem first_of_singleton_prefix [DecidableEq β] {tag : α → β} {l : List α} {n : Nat} {x : α}
    (hl : l.Nodup) (h : l[n]? = some x) (hx : [x] <+: l.filter (fun y => tag y = tag x)) :
    First tag l n := by
  intro x' hx' y hy hyx
  cases h.symm.trans hx'
  obtain ⟨hsplit, -⟩ := eraseIdx_split h
  rw [hsplit] at hl hx
  have hmem : y ∈ (l.take n).filter (fun y => tag y = tag x) := by
    simp [hy, hyx]
  -- the class has an item in front of `x`, so it starts there, and `x` would be there twice
  rw [List.filter_append] at hx
  have hin : x ∈ l.take n := by
    have hpos : 1 ≤ ((l.take n).filter (fun y => tag y = tag x)).length :=
      List.length_pos_of_mem hmem
    have hx := List.prefix_of_prefix_length_le hx (List.prefix_append _ _) hpos
    exact List.mem_of_mem_filter (hx.subset (List.mem_singleton_self x))
  exact (List.nodup_append.mp hl).2.2 x hin x List.mem_cons_self rfl

/-- What is still to come, in order, when the others came first. -/
theorem eq_of_sublist_perm {a b l : List α} (hnodup : (a ++ b).Nodup)
    (hsub : l.Sublist (a ++ b)) (hperm : l.Perm b) : l = b := by
  obtain ⟨l₁, l₂, rfl, h₁, h₂⟩ := List.sublist_append_iff.mp hsub
  cases l₁ with
  | nil => exact h₂.eq_of_length hperm.length_eq
  | cons x l₁ =>
    have ha : x ∈ a := h₁.subset List.mem_cons_self
    have hb : x ∈ b := hperm.subset (List.mem_append_left _ List.mem_cons_self)
    exact absurd rfl ((List.nodup_append.mp hnodup).2.2 x ha x hb)

end OrderedMoves
