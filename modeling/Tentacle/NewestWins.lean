import Mathlib.Data.List.Induction
import Mathlib.Order.Lattice

/-!
# A register that keeps the newest write

Writes carry a timestamp and may arrive in any order. The register takes a write unless the one it
holds is newer, so that of the writes with the newest timestamp the last to arrive stays. A
register starts with a value that stands for no write.
-/

namespace NewestWins

variable {τ α : Type} [LinearOrder τ]

/-- The write is the last among those with the newest timestamp. -/
def Newest (writes : List (τ × α)) (w : τ × α) : Prop :=
  ∃ front back, writes = front ++ w :: back ∧ (∀ x ∈ front, x.1 ≤ w.1) ∧ ∀ x ∈ back, x.1 < w.1

theorem not_newest_nil (w : τ × α) : ¬ Newest [] w := by
  rintro ⟨front, back, h, -⟩
  simp at h

/-- The register after a write. -/
def put (r w : τ × α) : τ × α := if w.1 < r.1 then r else w

/-- The register holds the newest of the writes, unless it holds the value it started with. -/
structure Tracks (unset : α) (r : τ × α) (writes : List (τ × α)) : Prop where
  bound : ∀ w ∈ writes, w.1 ≤ r.1
  newest : r.2 ≠ unset → Newest writes r

theorem tracks_unset (unset : α) (time : τ) : Tracks unset (time, unset) [] :=
  ⟨nofun, fun h => absurd rfl h⟩

/-- A write to the register is a write to the history. -/
theorem Tracks.put {unset : α} {r : τ × α} {writes : List (τ × α)} (h : Tracks unset r writes)
    (w : τ × α) : Tracks unset (NewestWins.put r w) (writes ++ [w]) := by
  unfold NewestWins.put
  split
  next hold =>
    constructor
    · intro x hx
      rcases List.mem_append.mp hx with hx | hx
      · exact h.bound x hx
      · rw [List.mem_singleton.mp hx]
        exact hold.le
    · intro hset
      obtain ⟨front, back, hwrites, hfront, hback⟩ := h.newest hset
      refine ⟨front, back ++ [w], by simp [hwrites], hfront, ?_⟩
      intro x hx
      rcases List.mem_append.mp hx with hx | hx
      · exact hback x hx
      · rw [List.mem_singleton.mp hx]
        exact hold
  next hnew =>
    have hbound : ∀ x ∈ writes, x.1 ≤ w.1 := fun x hx => (h.bound x hx).trans (not_lt.mp hnew)
    constructor
    · intro x hx
      rcases List.mem_append.mp hx with hx | hx
      · exact hbound x hx
      · rw [List.mem_singleton.mp hx]
    · intro _
      exact ⟨writes, [], rfl, hbound, nofun⟩

/-! ## The newest write is one -/

theorem Newest.mem {writes : List (τ × α)} {w : τ × α} (h : Newest writes w) : w ∈ writes := by
  obtain ⟨front, back, rfl, -, -⟩ := h
  simp

/-- Nothing in the history is newer than the newest. -/
theorem Newest.le {writes : List (τ × α)} {w x : τ × α} (h : Newest writes w) (hx : x ∈ writes) :
    x.1 ≤ w.1 := by
  obtain ⟨front, back, rfl, hfront, hback⟩ := h
  rcases List.mem_append.mp hx with hx | hx
  · exact hfront x hx
  · rcases List.mem_cons.mp hx with rfl | hx
    · exact le_rfl
    · exact (hback x hx).le

theorem newest_snoc {writes : List (τ × α)} {w : τ × α} (h : ∀ x ∈ writes, x.1 ≤ w.1) :
    Newest (writes ++ [w]) w := ⟨writes, [], rfl, h, nofun⟩

/-- A newest write among the first ones stays it when all later ones are older. -/
theorem Newest.append {first second : List (τ × α)} {w : τ × α} (h : Newest first w)
    (hlater : ∀ x ∈ second, x.1 < w.1) : Newest (first ++ second) w := by
  obtain ⟨front, back, rfl, hfront, hback⟩ := h
  refine ⟨front, back ++ second, by simp, hfront, ?_⟩
  intro x hx
  rcases List.mem_append.mp hx with hx | hx
  · exact hback x hx
  · exact hlater x hx

/-- The newest of two histories is the newest of the first, and newer than the second, or the newest
of the second. -/
theorem newest_append {first second : List (τ × α)} {w : τ × α} (h : Newest (first ++ second) w) :
    (Newest first w ∧ ∀ x ∈ second, x.1 < w.1) ∨ Newest second w := by
  obtain ⟨front, back, heq, hfront, hback⟩ := h
  rcases List.append_eq_append_iff.mp heq with ⟨mid, rfl, hsecond⟩ | ⟨mid, hfirst, htail⟩
  · right
    exact ⟨mid, back, hsecond, fun x hx => hfront x (List.mem_append_right _ hx), hback⟩
  · cases mid with
    | nil =>
      right
      exact ⟨[], back, htail.symm, nofun, hback⟩
    | cons w' mid =>
      rw [List.cons_append, List.cons.injEq] at htail
      obtain ⟨rfl, rfl⟩ := htail
      left
      refine ⟨⟨front, mid, hfirst, hfront, fun x hx => hback x (List.mem_append_left _ hx)⟩, ?_⟩
      exact fun x hx => hback x (List.mem_append_right _ hx)

/-- There is one newest write. -/
theorem Newest.unique {writes : List (τ × α)} {w w' : τ × α} (h : Newest writes w)
    (h' : Newest writes w') : w = w' := by
  obtain ⟨front, back, rfl, hfront, hback⟩ := h
  have hle : w.1 ≤ w'.1 := h'.le (by simp)
  rcases newest_append h' with ⟨hfirst, hlater⟩ | hsecond
  · exact absurd (hlater w List.mem_cons_self) (not_lt.mpr (hfront w' hfirst.mem))
  · rcases List.mem_cons.mp hsecond.mem with rfl | hmem
    · rfl
    · exact absurd (hback w' hmem) (not_lt.mpr hle)

/-- A register that starts no newer than the writes ends with the newest. -/
theorem newest_foldl_put {writes : List (τ × α)} {r : τ × α} (h : ∀ w ∈ writes, r.1 ≤ w.1)
    (hne : writes ≠ []) : Newest writes (writes.foldl put r) := by
  induction writes using List.reverseRecOn with
  | nil => exact absurd rfl hne
  | append_singleton writes w ih =>
    rw [List.foldl_append, List.foldl_cons, List.foldl_nil]
    by_cases hnil : writes = []
    · subst hnil
      have hw : put r w = w := if_neg (not_lt.mpr (h w (by simp)))
      rw [List.foldl_nil, hw]
      exact newest_snoc nofun
    · have hnewest := ih (fun x hx => h x (List.mem_append_left _ hx)) hnil
      unfold put
      split
      · rename_i hold
        refine hnewest.append fun x hx => ?_
        rw [List.mem_singleton.mp hx]
        exact hold
      · rename_i hnew
        exact newest_snoc fun x hx => (hnewest.le hx).trans (not_lt.mp hnew)

/-- A register that was set back between two histories has the value of the newest write of both,
unless the newest of the first one is newer than the second and has another value. -/
theorem foldl_put_newest_iff {first second : List (τ × α)} {r : τ × α}
    (h : ∀ w ∈ second, r.1 ≤ w.1) :
    (∀ w, Newest (first ++ second) w → (second.foldl put r).2 = w.2) ↔
      ∀ w, Newest first w → (∃ x ∈ second, w.1 ≤ x.1) ∨ (second.foldl put r).2 = w.2 := by
  constructor
  · intro hnewest w hw
    by_cases hx : ∃ x ∈ second, w.1 ≤ x.1
    · exact .inl hx
    · right
      apply hnewest w
      apply hw.append
      intro x hmem
      exact not_le.mp fun hle => hx ⟨x, hmem, hle⟩
  · intro hfirst w hw
    rcases newest_append hw with ⟨hw, hlater⟩ | hw
    · rcases hfirst w hw with ⟨x, hmem, hle⟩ | hsame
      · exact absurd (hlater x hmem) (not_lt.mpr hle)
      · exact hsame
    · have hne : second ≠ [] := List.ne_nil_of_mem hw.mem
      rw [(newest_foldl_put h hne).unique hw]

end NewestWins
