import Mathlib.Data.List.Basic

/-!
# Histories

A history is the list of what has happened so far, oldest first; it grows at
its end. A law of a history says of each event what must have happened before.
-/

namespace Histories

variable {α : Type}

/-- Every event of the history is allowed by the events before it. -/
def Each (allowed : List α → α → Prop) (history : List α) : Prop :=
  ∀ before event after, history = before ++ event :: after → allowed before event

@[simp] theorem each_nil (allowed : List α → α → Prop) : Each allowed [] := by
  intro before event after h
  simp at h

/-- One more event keeps the law exactly when the history so far allows it. -/
theorem each_snoc (allowed : List α → α → Prop) (history : List α) (event : α) :
    Each allowed (history ++ [event]) ↔ Each allowed history ∧ allowed history event := by
  constructor
  · intro h
    refine ⟨?_, h history event [] rfl⟩
    intro before e after he
    exact h before e (after ++ [event]) (by simp [he])
  · rintro ⟨hall, hlast⟩ before e after he
    rcases List.eq_nil_or_concat after with rfl | ⟨front, last, rfl⟩
    · obtain ⟨rfl, hx⟩ := List.append_inj' he rfl
      cases hx
      exact hlast
    · rw [List.concat_eq_append, ← List.cons_append, ← List.append_assoc] at he
      obtain ⟨hfront, -⟩ := List.append_inj' he rfl
      exact hall before e front hfront

end Histories
