import Mathlib

/-!
# Rectangles

Rectangles with whole coordinates in the plane. Rectangles within frames that lie beside or below
each other have disjoint interiors.
-/

/-- The corner with the smallest coordinates, and the size. -/
structure Rectangle where
  x : Int
  y : Int
  width : Int
  height : Int
  deriving DecidableEq, Repr

namespace Rectangle

/-- The points of the rectangle. -/
def region (r : Rectangle) : Set (ℝ × ℝ) :=
  Set.Icc (r.x : ℝ) (r.x + r.width) ×ˢ Set.Icc (r.y : ℝ) (r.y + r.height)

def Within (r frame : Rectangle) : Prop :=
  frame.x ≤ r.x ∧ r.x + r.width ≤ frame.x + frame.width ∧
    frame.y ≤ r.y ∧ r.y + r.height ≤ frame.y + frame.height

/-- One of the two is left of the other, or above it. -/
def Apart (r r' : Rectangle) : Prop :=
  r.x + r.width ≤ r'.x ∨ r'.x + r'.width ≤ r.x ∨ r.y + r.height ≤ r'.y ∨ r'.y + r'.height ≤ r.y

theorem Within.trans {r r' frame : Rectangle} (h : r.Within r') (h' : r'.Within frame) :
    r.Within frame := by
  unfold Within at *
  omega

theorem Apart.within {r r' frame frame' : Rectangle} (h : frame.Apart frame')
    (hr : r.Within frame) (hr' : r'.Within frame') : r.Apart r' := by
  unfold Within at *
  unfold Apart at *
  omega

theorem region_subset {r frame : Rectangle} (h : r.Within frame) : r.region ⊆ frame.region := by
  obtain ⟨hleft, hright, htop, hbottom⟩ := h
  apply Set.prod_mono
  · exact Set.Icc_subset_Icc (by exact_mod_cast hleft) (by exact_mod_cast hright)
  · exact Set.Icc_subset_Icc (by exact_mod_cast htop) (by exact_mod_cast hbottom)

theorem disjoint_Ioo_of_le {a b c d : ℝ} (h : b ≤ c ∨ d ≤ a) :
    Disjoint (Set.Ioo a b) (Set.Ioo c d) := by
  rw [Set.Ioo_disjoint_Ioo]
  rcases h with h | h
  · exact (min_le_left b d).trans (h.trans (le_max_right a c))
  · exact (min_le_right b d).trans (h.trans (le_max_left a c))

/-- Rectangles that lie apart have no inner point in common. -/
theorem disjoint_interior {r r' : Rectangle} (h : r.Apart r') :
    Disjoint (interior r.region) (interior r'.region) := by
  simp only [region, interior_prod_eq, interior_Icc, Set.disjoint_prod]
  rcases h with h | h | h | h
  · exact .inl (disjoint_Ioo_of_le (.inl (by exact_mod_cast h)))
  · exact .inl (disjoint_Ioo_of_le (.inr (by exact_mod_cast h)))
  · exact .inr (disjoint_Ioo_of_le (.inl (by exact_mod_cast h)))
  · exact .inr (disjoint_Ioo_of_le (.inr (by exact_mod_cast h)))

end Rectangle
