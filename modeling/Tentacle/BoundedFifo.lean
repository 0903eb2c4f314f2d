import Tentacle.Runs

/-!
# A bounded queue with its history

Items are pushed behind a queue and leave it at its front only: they are drained, or they are
evicted to make room in a full queue. The history keeps all that was pushed and all that has
left, in order.
-/

namespace BoundedFifo

open Runs

variable {α : Type}

inductive Exit where
  | drained
  | evicted
  deriving DecidableEq, Repr

structure Fifo (α : Type) where
  pushed : List α := []
  left : List (Exit × α) := []
  queue : List α := []

/-- The items that left in one of the two ways, in order. -/
def Fifo.gone (q : Fifo α) (way : Exit) : List α :=
  (q.left.filter fun e => e.1 = way).map Prod.snd

def Fifo.push (q : Fifo α) (a : α) : Fifo α :=
  { q with pushed := q.pushed ++ [a], queue := q.queue ++ [a] }

@[simp] theorem push_pushed (q : Fifo α) (a : α) : (q.push a).pushed = q.pushed ++ [a] := rfl
@[simp] theorem push_queue (q : Fifo α) (a : α) : (q.push a).queue = q.queue ++ [a] := rfl
@[simp] theorem gone_push (q : Fifo α) (a : α) (way : Exit) : (q.push a).gone way = q.gone way :=
  rfl

inductive Step (α : Type) where
  | push (a : α)
  | leave (way : Exit)
  deriving DecidableEq, Repr

/-- A push needs room, and an item is evicted from a full queue only. -/
def step (max : Nat) (q : Fifo α) : Step α → Option (Fifo α)
  | .push a => if q.queue.length < max then some (q.push a) else none
  | .leave way =>
    match q.queue with
    | [] => none
    | a :: rest =>
      if way = .evicted → max ≤ q.queue.length then
        some { q with left := q.left ++ [(way, a)], queue := rest }
      else none

/-- All that was pushed has left, in that order, or is in the queue. -/
structure Balanced (max : Nat) (q : Fifo α) : Prop where
  pushed : q.pushed = q.left.map Prod.snd ++ q.queue
  length : q.queue.length ≤ max

/-- Each step keeps the balance of what came in, what waits and what has left. -/
theorem step_balanced {max : Nat} {q r : Fifo α} {s : Step α} (h : Balanced max q)
    (hstep : step max q s = some r) : Balanced max r := by
  cases s with
  | push a =>
    obtain ⟨hroom, ⟨⟩⟩ := Option.ite_none_right_eq_some.mp hstep
    constructor
    · rw [push_pushed, push_queue, h.pushed, List.append_assoc]
      rfl
    · rw [push_queue, List.length_append, List.length_singleton]
      exact hroom
  | leave way =>
    rw [step] at hstep
    split at hstep
    next => cases hstep
    next a rest hqueue =>
      obtain ⟨-, ⟨⟩⟩ := Option.ite_none_right_eq_some.mp hstep
      have hpushed := h.pushed
      have hlength := h.length
      rw [hqueue] at hpushed hlength
      constructor
      · change q.pushed = (q.left ++ [(way, a)]).map Prod.snd ++ rest
        rw [hpushed, List.map_append, List.append_assoc]
        rfl
      · exact Nat.le_of_succ_le hlength

theorem reaches_balanced {max : Nat} {q r : Fifo α} (h : Balanced max q)
    (hreach : Reaches (step max) q r) : Balanced max r := by
  obtain ⟨steps, hrun⟩ := hreach
  exact run_preserves (fun _ _ _ => step_balanced) h hrun

/-- What left in one way is a part of what was pushed, in the same order. -/
theorem Balanced.sublist {max : Nat} {q : Fifo α} (h : Balanced max q) (way : Exit) :
    (q.gone way).Sublist q.pushed := by
  rw [h.pushed, Fifo.gone]
  exact (List.filter_sublist.map _).trans (List.sublist_append_left _ _)

/-- What has left was drained or evicted. -/
theorem length_gone_add (q : Fifo α) :
    (q.gone .drained).length + (q.gone .evicted).length = q.left.length := by
  rw [Fifo.gone, Fifo.gone, List.length_map, List.length_map]
  induction q.left with
  | nil => rfl
  | cons e left ih =>
    obtain ⟨way, a⟩ := e
    cases way with
    | drained =>
      rw [List.filter_cons_of_pos (by rfl), List.filter_cons_of_neg (by simp), List.length_cons,
        List.length_cons, ← ih]
      omega
    | evicted =>
      rw [List.filter_cons_of_neg (by simp), List.filter_cons_of_pos (by rfl), List.length_cons,
        List.length_cons, ← ih]
      omega

theorem Balanced.count {max : Nat} {q : Fifo α} (h : Balanced max q) :
    q.pushed.length = (q.gone .drained).length + (q.gone .evicted).length + q.queue.length := by
  rw [length_gone_add, h.pushed, List.length_append, List.length_map]

/-! ## Several items at once -/

/-- The front of the queue leaves, item by item. -/
def Fifo.leaveFront (q : Fifo α) (way : Exit) (n : Nat) : Fifo α :=
  { q with
    left := q.left ++ (q.queue.take n).map fun a => (way, a)
    queue := q.queue.drop n }

@[simp] theorem leaveFront_pushed (q : Fifo α) (way : Exit) (n : Nat) :
    (q.leaveFront way n).pushed = q.pushed := rfl
@[simp] theorem leaveFront_queue (q : Fifo α) (way : Exit) (n : Nat) :
    (q.leaveFront way n).queue = q.queue.drop n := rfl
@[simp] theorem leaveFront_zero (q : Fifo α) (way : Exit) : q.leaveFront way 0 = q := by
  simp [Fifo.leaveFront]

theorem leaveFront_succ {q : Fifo α} {a : α} {rest : List α} (h : q.queue = a :: rest)
    (way : Exit) (n : Nat) : q.leaveFront way (n + 1) =
      Fifo.leaveFront { q with left := q.left ++ [(way, a)], queue := rest } way n := by
  simp [Fifo.leaveFront, h]

/-- The items of the front are gone in the way they leave, and in no other. -/
@[simp] theorem gone_leaveFront (q : Fifo α) (way way' : Exit) (n : Nat) :
    (q.leaveFront way n).gone way' =
      q.gone way' ++ if way = way' then q.queue.take n else [] := by
  rw [Fifo.gone, Fifo.gone, Fifo.leaveFront, List.filter_append, List.map_append, List.filter_map,
    List.map_map]
  congr 1
  split
  next h =>
    have hall : ((fun e : Exit × α => decide (e.1 = way')) ∘ fun a => (way, a)) =
        fun _ => true := by
      funext a
      exact decide_eq_true h
    rw [hall, List.filter_true]
    exact List.map_id _
  next h =>
    have hnone : ((fun e : Exit × α => decide (e.1 = way')) ∘ fun a => (way, a)) =
        fun _ => false := by
      funext a
      exact decide_eq_false h
    rw [hnone, List.filter_false]
    rfl

/-- The front leaves in single steps: an eviction needs a full queue each time. -/
theorem reaches_leaveFront {max : Nat} {way : Exit} {n : Nat} {q : Fifo α}
    (hn : n ≤ q.queue.length) (hfull : way = .evicted → 0 < n → max + n ≤ q.queue.length + 1) :
    Reaches (step max) q (q.leaveFront way n) := by
  induction n generalizing q with
  | zero =>
    rw [leaveFront_zero]
    exact .refl _ _
  | succ n ih =>
    cases hqueue : q.queue with
    | nil =>
      rw [hqueue] at hn
      exact absurd hn (Nat.not_succ_le_zero n)
    | cons a rest =>
      have hstep : step max q (.leave way) =
          some { q with left := q.left ++ [(way, a)], queue := rest } := by
        rw [step, hqueue]
        apply if_pos
        intro hway
        have hfull := hfull hway (Nat.succ_pos n)
        rw [hqueue] at hfull
        omega
      rw [leaveFront_succ hqueue]
      refine (Reaches.step hstep).trans (ih ?_ ?_)
      · rw [hqueue, List.length_cons] at hn
        exact Nat.le_of_succ_le_succ hn
      · intro hway _
        have hfull := hfull hway (Nat.succ_pos n)
        rw [hqueue, List.length_cons] at hfull
        change max + n ≤ rest.length + 1
        omega

end BoundedFifo
