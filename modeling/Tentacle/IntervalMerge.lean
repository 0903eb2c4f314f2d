import Mathlib.Algebra.Order.Ring.Int
import Mathlib.Data.List.Basic

/-!
# Merging sorted intervals

Intervals that are sorted by their start are merged from left to right: one that starts
at most a gap behind the end of the current one is taken into it, any other one begins
anew. How long the merged intervals get can be told from the given ones alone. A start
that has nothing within the gap before it is a break, and no merged interval goes across
one.
-/

namespace IntervalMerge

/-- The integers from `start` on and below `stop`. -/
structure Interval where
  start : Int
  stop : Int
  deriving DecidableEq, Repr

namespace Interval

def length (i : Interval) : Int := i.stop - i.start

/-- The current interval when one that starts later is taken into it. -/
def extend (c i : Interval) : Interval := ⟨c.start, max c.stop i.stop⟩

end Interval

def merge (gap : Int) : Interval → List Interval → List Interval
  | c, [] => [c]
  | c, i :: is =>
    if i.start - c.stop ≤ gap then merge gap (c.extend i) is else c :: merge gap i is

/-- Whatever starts before `v` ends more than a gap before it. -/
def Break (gap : Int) (is : List Interval) (v : Interval) : Prop :=
  ∀ w ∈ is, w.start < v.start → w.stop + gap < v.start

/-- Between a start and an end that are further apart than the limit there is a break. -/
def Spread (gap limit : Int) (is : List Interval) : Prop :=
  ∀ t ∈ is, ∀ u ∈ is, limit < u.stop - t.start →
    ∃ v ∈ is, t.start < v.start ∧ v.start ≤ u.start ∧ Break gap is v

variable {gap limit : Int} {c i : Interval} {is : List Interval}

theorem break_cons {w v : Interval} :
    Break gap (w :: is) v ↔ (w.start < v.start → w.stop + gap < v.start) ∧ Break gap is v := by
  simp only [Break, List.mem_cons, forall_eq_or_imp]

/-- Spread is about the set of the intervals. -/
theorem spread_congr {is' : List Interval} (h : ∀ i, i ∈ is ↔ i ∈ is') :
    Spread gap limit is ↔ Spread gap limit is' := by
  simp only [Spread, Break, h]

/-- One interval needs to be within the limit only. -/
theorem spread_singleton : Spread gap limit [c] ↔ c.length ≤ limit := by
  constructor
  · intro h
    by_contra hlong
    obtain ⟨v, hv, hafter, -, -⟩ := h c (by simp) c (by simp) (not_le.mp hlong)
    obtain rfl := List.mem_singleton.mp hv
    exact lt_irrefl _ hafter
  · intro h t ht u hu hfar
    obtain rfl := List.mem_singleton.mp ht
    obtain rfl := List.mem_singleton.mp hu
    exact absurd hfar (not_lt.mpr h)

/-! ## An interval that is taken in -/

section Extend

variable (hstart : c.start ≤ i.start) (hrest : ∀ u ∈ is, i.start ≤ u.start)
  (hgap : i.start - c.stop ≤ gap)
include hgap

/-- A break behind the current interval lies behind the one that is taken in. -/
theorem lt_of_break {v : Interval} (hafter : c.start < v.start) (h : Break gap (c :: is) v) :
    i.start < v.start := by
  have hcurrent := (break_cons.mp h).1 hafter
  omega

theorem lt_of_break_extend {v : Interval} (hafter : c.start < v.start)
    (h : Break gap (c.extend i :: is) v) : i.start < v.start := by
  have hcurrent := (break_cons.mp h).1 hafter
  rw [Interval.extend] at hcurrent
  dsimp only at hcurrent
  omega

/-- The breaks behind the two are the breaks behind their union. -/
theorem break_extend_iff {v : Interval} (hafter : c.start < v.start) :
    Break gap (c.extend i :: is) v ↔ Break gap (c :: i :: is) v := by
  constructor
  · intro h
    obtain ⟨hhull, hothers⟩ := break_cons.mp h
    have hcurrent := hhull hafter
    rw [Interval.extend] at hcurrent
    dsimp only at hcurrent
    exact break_cons.mpr ⟨fun _ => by omega, break_cons.mpr ⟨fun _ => by omega, hothers⟩⟩
  · intro h
    obtain ⟨hc, htail⟩ := break_cons.mp h
    obtain ⟨hi, hothers⟩ := break_cons.mp htail
    refine break_cons.mpr ⟨fun _ => ?_, hothers⟩
    have hcurrent := hc hafter
    have htaken := hi (by omega)
    rw [Interval.extend]
    dsimp only
    omega

include hstart hrest

/-- Taking an interval in leaves the spread as it is. -/
theorem spread_extend_iff :
    Spread gap limit (c.extend i :: is) ↔ Spread gap limit (c :: i :: is) := by
  constructor
  · intro h t ht u hu hfar
    -- The union stands for the two, at both ends.
    obtain ⟨t', ht', htstart, htlow, htafter⟩ : ∃ t' ∈ c.extend i :: is, t'.start ≤ t.start ∧
        c.start ≤ t'.start ∧ ∀ v : Interval, i.start < v.start → t'.start < v.start →
          t.start < v.start := by
      obtain rfl | rfl | ht : t = c ∨ t = i ∨ t ∈ is := by simpa using ht
      · exact ⟨_, .head _, le_rfl, le_rfl, fun v _ h => h⟩
      · exact ⟨_, .head _, hstart, le_rfl, fun v h _ => h⟩
      · exact ⟨t, .tail _ ht, le_rfl, hstart.trans (hrest t ht), fun v _ h => h⟩
    obtain ⟨u', hu', hustop, hubefore⟩ : ∃ u' ∈ c.extend i :: is, u.stop ≤ u'.stop ∧
        ∀ v : Interval, i.start < v.start → v.start ≤ u'.start → v.start ≤ u.start := by
      obtain rfl | rfl | hu : u = c ∨ u = i ∨ u ∈ is := by simpa using hu
      · exact ⟨_, .head _, le_max_left _ _, fun v _ h => h⟩
      · exact ⟨_, .head _, le_max_right _ _, fun v _ h => h.trans hstart⟩
      · exact ⟨u, .tail _ hu, le_rfl, fun v _ h => h⟩
    obtain ⟨v, hv, hafter, hbefore, hbreak⟩ := h t' ht' u' hu' (by omega)
    have hbehind : c.start < v.start := by omega
    obtain rfl | hv := List.mem_cons.mp hv
    · exact absurd hbehind (lt_irrefl _)
    have hlate := lt_of_break_extend hgap hbehind hbreak
    exact ⟨v, .tail _ (.tail _ hv), htafter v hlate hafter, hubefore v hlate hbefore,
      (break_extend_iff hgap hbehind).mp hbreak⟩
  · intro h t ht u hu hfar
    obtain ⟨t', ht', htstart, htlow⟩ : ∃ t' ∈ c :: i :: is, t'.start = t.start ∧
        c.start ≤ t'.start := by
      obtain rfl | ht := List.mem_cons.mp ht
      · exact ⟨c, .head _, rfl, le_rfl⟩
      · exact ⟨t, .tail _ (.tail _ ht), rfl, hstart.trans (hrest t ht)⟩
    obtain ⟨u', hu', hustop, hubefore⟩ : ∃ u' ∈ c :: i :: is, u'.stop = u.stop ∧
        ∀ v : Interval, i.start < v.start → v.start ≤ u'.start → v.start ≤ u.start := by
      obtain rfl | hu := List.mem_cons.mp hu
      · obtain hmax | hmax := max_choice c.stop i.stop
        · exact ⟨c, .head _, hmax.symm, fun v _ h => h⟩
        · exact ⟨i, .tail _ (.head _), hmax.symm, fun v hlate h => absurd h (not_le.mpr hlate)⟩
      · exact ⟨u, .tail _ (.tail _ hu), rfl, fun v _ h => h⟩
    obtain ⟨v, hv, hafter, hbefore, hbreak⟩ := h t' ht' u' hu' (by omega)
    have hbehind : c.start < v.start := by omega
    have hlate := lt_of_break hgap hbehind hbreak
    obtain rfl | rfl | hv : v = c ∨ v = i ∨ v ∈ is := by simpa using hv
    · exact absurd hbehind (lt_irrefl _)
    · exact absurd hlate (lt_irrefl _)
    · exact ⟨v, .tail _ hv, by omega, hubefore v hlate hbefore,
        (break_extend_iff hgap hbehind).mpr hbreak⟩

end Extend

/-! ## An interval that begins anew -/

section Anew

variable (hlength : 0 ≤ c.length) (hlimit : 0 ≤ limit) (hpos : 0 ≤ gap)
  (hrest : ∀ u ∈ is, i.start ≤ u.start) (hgap : gap < i.start - c.stop)
include hlength hlimit hpos hrest hgap

/-- The interval that begins anew is a break, so both sides are spread on their own. -/
theorem spread_anew_iff :
    Spread gap limit (c :: i :: is) ↔ c.length ≤ limit ∧ Spread gap limit (i :: is) := by
  rw [Interval.length] at *
  have hlow : ∀ u ∈ i :: is, i.start ≤ u.start := by
    intro u hu
    obtain rfl | hu := List.mem_cons.mp hu
    · exact le_rfl
    · exact hrest u hu
  constructor
  · intro h
    constructor
    · by_contra hlong
      obtain ⟨v, -, hafter, hbefore, -⟩ := h c (.head _) c (.head _) (not_le.mp hlong)
      omega
    · intro t ht u hu hfar
      obtain ⟨v, hv, hafter, hbefore, hbreak⟩ := h t (.tail _ ht) u (.tail _ hu) hfar
      have hstart := hlow t ht
      obtain rfl | hv := List.mem_cons.mp hv
      · omega
      · exact ⟨v, hv, hafter, hbefore, (break_cons.mp hbreak).2⟩
  · rintro ⟨hshort, h⟩ t ht u hu hfar
    obtain rfl | ht := List.mem_cons.mp ht
    · obtain rfl | hu := List.mem_cons.mp hu
      · omega
      · refine ⟨i, .tail _ (.head _), by omega, hlow u hu, break_cons.mpr ⟨fun _ => by omega, ?_⟩⟩
        intro w hw hbefore
        have := hlow w hw
        omega
    · have hstart := hlow t ht
      obtain rfl | hu := List.mem_cons.mp hu
      · omega
      · obtain ⟨v, hv, hafter, hbefore, hbreak⟩ := h t ht u hu hfar
        exact ⟨v, .tail _ hv, hafter, hbefore, break_cons.mpr ⟨fun _ => by omega, hbreak⟩⟩

end Anew

/-! ## The merge -/

/-- The merged intervals keep to the limit exactly when the given ones are spread. -/
theorem merge_length_le_iff (hpos : 0 ≤ gap) (hlimit : 0 ≤ limit)
    (hlength : ∀ u ∈ c :: is, 0 ≤ u.length)
    (hsorted : (c :: is).Pairwise fun t u => t.start ≤ u.start) :
    (∀ b ∈ merge gap c is, b.length ≤ limit) ↔ Spread gap limit (c :: is) := by
  induction is generalizing c with
  | nil => rw [merge, List.forall_mem_singleton, spread_singleton]
  | cons i is ih =>
    obtain ⟨hstart, hrest⟩ := List.pairwise_cons.mp hsorted
    obtain ⟨hlow, hpairs⟩ := List.pairwise_cons.mp hrest
    have hc := hlength c (.head _)
    rw [merge]
    split
    case isTrue hgap =>
      rw [ih, spread_extend_iff (hstart i (.head _)) hlow hgap]
      · intro u hu
        obtain rfl | hu := List.mem_cons.mp hu
        · exact hc.trans (sub_le_sub_right (le_max_left _ _) _)
        · exact hlength u (.tail _ (.tail _ hu))
      · exact List.pairwise_cons.mpr ⟨fun u hu => hstart u (.tail _ hu), hpairs⟩
    case isFalse hgap =>
      rw [List.forall_mem_cons, ih (fun u hu => hlength u (.tail _ hu)) hrest,
        spread_anew_iff hc hlimit hpos hlow (not_le.mp hgap)]

end IntervalMerge
