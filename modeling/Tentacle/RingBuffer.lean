import Mathlib.Data.List.DropRight

/-!
# A cyclic buffer

A buffer of `n` cells takes every entry at the next position and starts over behind the
last one. It is described by the history of all entries: entry `i` is in cell `i % n`
until entry `i + n` is written over it.
-/

namespace RingBuffer

variable {α : Type}

/-- The buffer holds the last `n` entries of the history, each in its cell. -/
structure Holds (n : Nat) (buf history : List α) : Prop where
  length : buf.length = n
  cell : ∀ i < history.length, history.length ≤ i + n → buf[i % n]? = history[i]?

theorem holds_nil (n : Nat) (zero : α) : Holds n (List.replicate n zero) [] :=
  ⟨List.length_replicate, fun _ h => absurd h (Nat.not_lt_zero _)⟩

variable {n : Nat} {buf history : List α}

/-- Less than a round apart, two entries are in different cells. -/
theorem mod_ne {i j : Nat} (hij : i < j) (hj : j < i + n) : i % n ≠ j % n := by
  intro h
  have hdvd : n ∣ j - i := Nat.dvd_of_mod_eq_zero (Nat.sub_mod_eq_zero_of_mod_eq h.symm)
  have hle := Nat.le_of_dvd (by omega) hdvd
  omega

/-- The next element takes the place of the oldest one. -/
theorem Holds.push (h : Holds n buf history) (hn : 0 < n) (a : α) :
    Holds n (buf.set (history.length % n) a) (history ++ [a]) := by
  constructor
  · rw [List.length_set, h.length]
  · intro i hi hnew
    rw [List.length_append, List.length_singleton] at hi hnew
    obtain rfl | hold : i = history.length ∨ i < history.length := by omega
    · have hcell : history.length % n < buf.length := by
        rw [h.length]
        exact Nat.mod_lt _ hn
      rw [List.getElem?_set_self hcell, List.getElem?_concat_length]
    · have hne : history.length % n ≠ i % n := (mod_ne hold (by omega)).symm
      rw [List.getElem?_set_ne hne, List.getElem?_append_left hold]
      exact h.cell i hold (by omega)

/-- The entries from the newest one backwards. -/
theorem Holds.newest (h : Holds n buf history) {k : Nat} (hk : k < history.length) (hn : k < n) :
    buf[(history.length - 1 - k) % n]? = history.reverse[k]? := by
  rw [List.getElem?_reverse hk]
  exact h.cell _ (by omega) (by omega)

/-- Before the first round is complete the buffer starts with the history. -/
theorem Holds.take (h : Holds n buf history) (hlt : history.length < n) :
    buf.take history.length = history := by
  apply List.ext_getElem?
  intro i
  by_cases hi : i < history.length
  · have hcell := h.cell i hi (by omega)
    rw [Nat.mod_eq_of_lt (by omega)] at hcell
    rw [List.getElem?_take_of_lt hi, hcell]
  · rw [List.getElem?_eq_none (by rw [List.length_take]; omega),
      List.getElem?_eq_none (by omega)]

/-- The last `n` entries, once there are as many: those from the next position on, and then
those before it. -/
theorem Holds.rtake (h : Holds n buf history) (hn : 0 < n) (hle : n ≤ history.length) :
    buf.drop (history.length % n) ++ buf.take (history.length % n) = history.rtake n := by
  obtain ⟨rounds, hrounds⟩ : ∃ rounds, history.length = n + n * rounds + history.length % n := by
    refine ⟨history.length / n - 1, ?_⟩
    have hdiv := Nat.div_add_mod history.length n
    have hone : 1 ≤ history.length / n := (Nat.one_le_div_iff hn).mpr hle
    obtain ⟨q, hq⟩ := Nat.exists_eq_add_of_le hone
    rw [hq, Nat.mul_add, Nat.mul_one] at hdiv
    rw [hq, Nat.add_sub_cancel_left]
    exact hdiv.symm
  have hpos := Nat.mod_lt history.length hn
  generalize history.length % n = pos at *
  have hlength := h.length
  have hstart : history.length - n = n * rounds + pos := by omega
  apply List.ext_getElem?
  intro j
  rw [List.rtake, hstart, List.getElem?_drop]
  by_cases hj : j < n
  · rw [← h.cell (n * rounds + pos + j) (by omega) (by omega), Nat.add_assoc, Nat.mul_add_mod]
    by_cases hwrap : pos + j < n
    · rw [List.getElem?_append_left (by rw [List.length_drop]; omega), List.getElem?_drop,
        Nat.mod_eq_of_lt hwrap]
    · have hmod : (pos + j) % n = j - (n - pos) := by
        rw [Nat.mod_eq_sub_mod (by omega), Nat.mod_eq_of_lt (by omega)]
        omega
      rw [List.getElem?_append_right (by rw [List.length_drop]; omega), List.length_drop, hlength,
        List.getElem?_take_of_lt (by omega), hmod]
  · have hall : (buf.drop pos ++ buf.take pos).length ≤ j := by
      rw [List.length_append, List.length_drop, List.length_take]
      omega
    rw [List.getElem?_eq_none hall, List.getElem?_eq_none (by omega)]

end RingBuffer
