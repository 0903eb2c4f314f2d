import Tentacle.Rectangles

/-!
# The layout of ladder diagrams

The editor draws a rung from left to right and the paths of a branch below each other. A branch
is laid out twice, once to measure its paths and once to place them, and both take identifiers
from one counter. Every tree of conditions gets a frame of its own, and its boxes stay in it.
-/

namespace LadderLayout

/-! ## Elements -/

inductive ContactType where
  | no
  | nc
  deriving DecidableEq, Repr

inductive LadderCondition where
  | contact (type : ContactType) (tag : String)
  | series (elements : List LadderCondition)
  | branch (paths : List LadderCondition)

inductive LadderOutput where
  | ote (tag : String)
  | otl (tag : String)
  | otu (tag : String)
  | ton (tag : String) (preset : Int)
  | tof (tag : String) (preset : Int)
  | ctu (tag : String) (preset : Int)
  | ctd (tag : String) (preset : Int)
  deriving DecidableEq, Repr

inductive LadderElement where
  | condition (c : LadderCondition)
  | output (o : LadderOutput)

structure Rung where
  conditions : List LadderCondition
  outputs : List LadderOutput

namespace LAYOUT

def RAIL_LEFT : Int := 30
def RAIL_RIGHT_MARGIN : Int := 30
def CONTACT_WIDTH : Int := 100
def CONTACT_HEIGHT : Int := 40
def COIL_WIDTH : Int := 100
def COIL_HEIGHT : Int := 40
def TIMER_WIDTH : Int := 140
def TIMER_HEIGHT : Int := 70
def COUNTER_WIDTH : Int := 140
def COUNTER_HEIGHT : Int := 70
def WIRE_GAP : Int := 16
def BRANCH_GAP : Int := 12
def RUNG_PADDING_Y : Int := 16

end LAYOUT

open LAYOUT

def elementWidth : LadderElement → Int
  | .condition (.contact _ _) => CONTACT_WIDTH
  | .output (.ote _) | .output (.otl _) | .output (.otu _) => COIL_WIDTH
  | .output (.ton _ _) | .output (.tof _ _) => TIMER_WIDTH
  | .output (.ctu _ _) | .output (.ctd _ _) => COUNTER_WIDTH
  | .condition (.series _) | .condition (.branch _) => 0

def elementHeight : LadderElement → Int
  | .condition (.contact _ _) => CONTACT_HEIGHT
  | .output (.ote _) | .output (.otl _) | .output (.otu _) => COIL_HEIGHT
  | .output (.ton _ _) | .output (.tof _ _) => TIMER_HEIGHT
  | .output (.ctu _ _) | .output (.ctd _ _) => COUNTER_HEIGHT
  | .condition (.series _) | .condition (.branch _) => 0

/-! ## Layout -/

structure LayoutElement where
  id : String
  element : LadderElement
  x : Int
  y : Int
  width : Int
  height : Int

structure LayoutWire where
  x1 : Int
  y1 : Int
  x2 : Int
  y2 : Int
  deriving DecidableEq, Repr

structure LayoutBranchLine where
  x : Int
  y1 : Int
  y2 : Int
  deriving DecidableEq, Repr

/-- What is drawn. -/
structure Drawing where
  elements : List LayoutElement := []
  wires : List LayoutWire := []
  branchLines : List LayoutBranchLine := []

/-- The pushes of one drawing after those of another. -/
def Drawing.append (d d' : Drawing) : Drawing :=
  ⟨d.elements ++ d'.elements, d.wires ++ d'.wires, d.branchLines ++ d'.branchLines⟩

structure LayoutResult extends Drawing where
  width : Int
  height : Int

/-- The identifier that `nextId` makes of the counter. -/
def elId (n : Nat) : String := "el_" ++ n.repr

/-- A contact or an output: its box is centred on the wire. -/
def layoutElement (element : LadderElement) (x y : Int) (idCounter : Nat) : LayoutResult × Nat :=
  let w := elementWidth element
  let h := elementHeight element
  (⟨{ elements := [⟨elId idCounter, element, x, y - h / 2, w, h⟩] }, w, h⟩, idCounter + 1)

/-- The wire before an element, except the first. -/
def wireBefore (i : Nat) (cursor y : Int) : Drawing × Int :=
  if 0 < i then ({ wires := [⟨cursor, y, cursor + WIRE_GAP, y⟩] }, cursor + WIRE_GAP)
  else ({}, cursor)

/-- The wire from the end of a path to the end of its branch. -/
def wireAfter (branchX branchEndX pathY width maxWidth : Int) : Drawing :=
  if width < maxWidth then { wires := [⟨branchX + width, pathY, branchEndX, pathY⟩] } else {}

/-- The vertical lines at both ends of a branch. -/
def verticalLines (branchX branchEndX : Int) (pathYPositions : List Int) : Drawing :=
  match pathYPositions with
  | firstY :: pathY :: rest =>
    let lastY := (pathY :: rest).getLast (List.cons_ne_nil _ _)
    { branchLines := [⟨branchX, firstY, lastY⟩, ⟨branchEndX, firstY, lastY⟩] }
  | _ => {}

mutual

def layoutCondition (condition : LadderCondition) (x y : Int) (idCounter : Nat) :
    LayoutResult × Nat :=
  match condition with
  | .contact type tag => layoutElement (.condition (.contact type tag)) x y idCounter
  | .series elements =>
    let (drawing, cursor, maxHeight, idCounter) :=
      layoutSeries elements 0 x y CONTACT_HEIGHT idCounter
    (⟨drawing, cursor - x, maxHeight⟩, idCounter)
  | .branch paths =>
    let (maxWidth, totalHeight, idCounter) := measurePaths paths 0 0 0 idCounter
    let (drawing, pathYPositions, idCounter) :=
      layoutPaths paths x (x + maxWidth) maxWidth y idCounter
    (⟨drawing.append (verticalLines x (x + maxWidth) pathYPositions), maxWidth, totalHeight⟩,
      idCounter)

/-- The loop over the elements of a series, from the `i`th on. -/
def layoutSeries (elements : List LadderCondition) (i : Nat) (cursor y maxHeight : Int)
    (idCounter : Nat) : Drawing × Int × Int × Nat :=
  match elements with
  | [] => ({}, cursor, maxHeight, idCounter)
  | child :: elements =>
    let (wire, cursor) := wireBefore i cursor y
    let (result, idCounter) := layoutCondition child cursor y idCounter
    let (rest, cursor, maxHeight, idCounter) :=
      layoutSeries elements (i + 1) (cursor + result.width) y (max maxHeight result.height)
        idCounter
    ((wire.append result.toDrawing).append rest, cursor, maxHeight, idCounter)

/-- The loop that measures the paths of a branch. -/
def measurePaths (paths : List LadderCondition) (i : Nat) (maxWidth totalHeight : Int)
    (idCounter : Nat) : Int × Int × Nat :=
  match paths with
  | [] => (maxWidth, totalHeight, idCounter)
  | path :: paths =>
    let (result, idCounter) := layoutCondition path 0 0 idCounter
    let totalHeight := if 0 < i then totalHeight + BRANCH_GAP else totalHeight
    measurePaths paths (i + 1) (max maxWidth result.width) (totalHeight + result.height) idCounter

/-- The loop that places the paths of a branch. -/
def layoutPaths (paths : List LadderCondition) (branchX branchEndX maxWidth pathY : Int)
    (idCounter : Nat) : Drawing × List Int × Nat :=
  match paths with
  | [] => ({}, [], idCounter)
  | path :: paths =>
    let (result, idCounter) := layoutCondition path branchX pathY idCounter
    let wire := wireAfter branchX branchEndX pathY result.width maxWidth
    let (rest, pathYPositions, idCounter) :=
      layoutPaths paths branchX branchEndX maxWidth (pathY + (result.height + BRANCH_GAP)) idCounter
    ((result.toDrawing.append wire).append rest, pathY :: pathYPositions, idCounter)

end

def layoutOutput (output : LadderOutput) (x y : Int) (idCounter : Nat) : LayoutResult × Nat :=
  layoutElement (.output output) x y idCounter

/-- The loop over the outputs of a rung. -/
def layoutOutputs (outputs : List LadderOutput) (i : Nat) (cursor y : Int) (idCounter : Nat) :
    Drawing × Int × Nat :=
  match outputs with
  | [] => ({}, cursor, idCounter)
  | output :: outputs =>
    let (wire, cursor) := wireBefore i cursor y
    let (result, idCounter) := layoutOutput output cursor y idCounter
    let (rest, cursor, idCounter) :=
      layoutOutputs outputs (i + 1) (cursor + result.width) y idCounter
    ((wire.append result.toDrawing).append rest, cursor, idCounter)

structure RungLayout extends Drawing where
  totalWidth : Int
  totalHeight : Int

/-- The loop over the conditions is that of a series, whose height is not used. -/
def layoutRung (rung : Rung) : RungLayout :=
  let wireY := RUNG_PADDING_Y + CONTACT_HEIGHT / 2
  let cursor := RAIL_LEFT
  let leftWire : Drawing := { wires := [⟨0, wireY, cursor, wireY⟩] }
  let (conditions, cursor, _, idCounter) :=
    layoutSeries rung.conditions 0 cursor wireY CONTACT_HEIGHT 0
  let (gap, cursor) :=
    wireBefore (if 0 < rung.conditions.length ∧ 0 < rung.outputs.length then 1 else 0) cursor wireY
  let (outputs, cursor, _) := layoutOutputs rung.outputs 0 cursor wireY idCounter
  let rightRail := cursor + RAIL_RIGHT_MARGIN
  let rightWire : Drawing := { wires := [⟨cursor, wireY, rightRail, wireY⟩] }
  let drawing := (((leftWire.append conditions).append gap).append outputs).append rightWire
  let maxBottom :=
    drawing.elements.foldl (fun m el => max m (el.y + el.height)) (wireY + CONTACT_HEIGHT / 2)
  ⟨drawing, rightRail, maxBottom + RUNG_PADDING_Y⟩

/-! ## Frames -/

/-- The gap before all but the first. -/
def gap (i : Nat) (g : Int) : Int := if 0 < i then g else 0

mutual

def width : LadderCondition → Int
  | .contact _ _ => CONTACT_WIDTH
  | .series elements => seriesWidth 0 elements
  | .branch paths => pathsWidth paths

def height : LadderCondition → Int
  | .contact _ _ => CONTACT_HEIGHT
  | .series elements => max CONTACT_HEIGHT (seriesHeight elements)
  | .branch paths => pathsHeight 0 paths

def seriesWidth (i : Nat) : List LadderCondition → Int
  | [] => 0
  | child :: elements => gap i WIRE_GAP + width child + seriesWidth (i + 1) elements

def seriesHeight : List LadderCondition → Int
  | [] => 0
  | child :: elements => max (height child) (seriesHeight elements)

def pathsWidth : List LadderCondition → Int
  | [] => 0
  | path :: paths => max (width path) (pathsWidth paths)

def pathsHeight (i : Nat) : List LadderCondition → Int
  | [] => 0
  | path :: paths => gap i BRANCH_GAP + height path + pathsHeight (i + 1) paths

end

mutual

/-- The contacts of a condition, as the source has them. -/
def contacts : LadderCondition → List LadderElement
  | .contact type tag => [.condition (.contact type tag)]
  | .series elements => contactsOf elements
  | .branch paths => contactsOf paths

def contactsOf : List LadderCondition → List LadderElement
  | [] => []
  | c :: cs => contacts c ++ contactsOf cs

end

theorem gap_nonneg (i : Nat) {g : Int} (h : 0 ≤ g) : 0 ≤ gap i g := by
  unfold gap
  split <;> omega

mutual

/-- No box is narrower or lower than nothing. -/
theorem size_nonneg (c : LadderCondition) : 0 ≤ width c ∧ 0 ≤ height c := by
  cases c with
  | contact type tag => simp [width, height, CONTACT_WIDTH, CONTACT_HEIGHT]
  | series elements =>
    obtain ⟨hwidth, hheight⟩ := series_nonneg elements
    exact ⟨by simpa [width] using hwidth 0, by rw [height]; omega⟩
  | branch paths =>
    obtain ⟨hwidth, hheight⟩ := paths_nonneg paths
    exact ⟨by simpa [width] using hwidth, by simpa [height] using hheight 0⟩

theorem series_nonneg (elements : List LadderCondition) :
    (∀ i, 0 ≤ seriesWidth i elements) ∧ 0 ≤ seriesHeight elements := by
  cases elements with
  | nil => simp [seriesWidth, seriesHeight]
  | cons child elements =>
    obtain ⟨hwidth, hheight⟩ := size_nonneg child
    obtain ⟨hwidths, hheights⟩ := series_nonneg elements
    constructor
    · intro i
      have hgap := gap_nonneg i (g := WIRE_GAP) (by decide)
      have := hwidths (i + 1)
      rw [seriesWidth]
      omega
    · rw [seriesHeight]
      omega

theorem paths_nonneg (paths : List LadderCondition) :
    0 ≤ pathsWidth paths ∧ ∀ i, 0 ≤ pathsHeight i paths := by
  cases paths with
  | nil => simp [pathsWidth, pathsHeight]
  | cons path paths =>
    obtain ⟨hwidth, hheight⟩ := size_nonneg path
    obtain ⟨hwidths, hheights⟩ := paths_nonneg paths
    constructor
    · rw [pathsWidth]
      omega
    · intro i
      have hgap := gap_nonneg i (g := BRANCH_GAP) (by decide)
      have := hheights (i + 1)
      rw [pathsHeight]
      omega

end

/-! ## Placed elements -/

def LayoutElement.rect (e : LayoutElement) : Rectangle := ⟨e.x, e.y, e.width, e.height⟩

/-- The identifiers that the counter gives from `n` to `m`. -/
def idRange (n m : Nat) : List String := (List.range' n (m - n)).map elId

theorem idRange_append {n m k : Nat} (h : n ≤ m) (h' : m ≤ k) :
    idRange n m ++ idRange m k = idRange n k := by
  rw [idRange, idRange, idRange, ← List.map_append]
  congr 1
  have hm : m = n + (m - n) := by omega
  have hk : k - n = m - n + (k - m) := by omega
  rw [hk, ← List.range'_append_1, ← hm]

theorem elId_injective : Function.Injective elId := by
  intro n m h
  have hrepr : n.repr = m.repr := String.append_right_inj _ |>.mp h
  have hdigits : Nat.toDigits 10 n = Nat.toDigits 10 m := String.ofList_injective hrepr
  rw [← Nat.ofDigitChars_toDigits (b := 10) (n := n) (by decide) (by decide), hdigits,
    Nat.ofDigitChars_toDigits (by decide) (by decide)]

/-- The boxes of the expected elements lie in the frame and apart from each other, with
identifiers of the counter from `start` to `finish`. -/
structure Placed (frame : Rectangle) (start finish : Nat) (expected : List LadderElement)
    (placed : List LayoutElement) : Prop where
  le : start ≤ finish
  within : ∀ e ∈ placed, e.rect.Within frame
  apart : placed.Pairwise fun e e' => e.rect.Apart e'.rect
  ids : (placed.map LayoutElement.id).Sublist (idRange start finish)
  elements : placed.map LayoutElement.element = expected

section Placed

variable {frame frame' : Rectangle} {start middle finish : Nat}
  {expected expected' : List LadderElement} {placed placed' : List LayoutElement}

theorem Placed.nil (frame : Rectangle) (start : Nat) : Placed frame start start [] [] :=
  ⟨le_refl _, by simp, .nil, by simp, rfl⟩

theorem Placed.mono (h : Placed frame start finish expected placed)
    (hframe : frame.Within frame') : Placed frame' start finish expected placed :=
  ⟨h.le, fun e he => (h.within e he).trans hframe, h.apart, h.ids, h.elements⟩

/-- Measuring burns identifiers. -/
theorem Placed.later (h : Placed frame middle finish expected placed) (hle : start ≤ middle) :
    Placed frame start finish expected placed := by
  refine ⟨hle.trans h.le, h.within, h.apart, ?_, h.elements⟩
  rw [← idRange_append hle h.le]
  exact h.ids.trans (List.sublist_append_right _ _)

/-- Two drawings whose frames lie apart make one drawing in a frame around them. -/
theorem Placed.append {outer : Rectangle} (h : Placed frame start middle expected placed)
    (h' : Placed frame' middle finish expected' placed') (hapart : frame.Apart frame')
    (hframe : frame.Within outer) (hframe' : frame'.Within outer) :
    Placed outer start finish (expected ++ expected') (placed ++ placed') := by
  constructor
  · exact h.le.trans h'.le
  · intro e he
    obtain he | he := List.mem_append.mp he
    · exact (h.within e he).trans hframe
    · exact (h'.within e he).trans hframe'
  · refine List.pairwise_append.mpr ⟨h.apart, h'.apart, ?_⟩
    exact fun e he e' he' => hapart.within (h.within e he) (h'.within e' he')
  · rw [List.map_append, ← idRange_append h.le h'.le]
    exact h.ids.append h'.ids
  · rw [List.map_append, h.elements, h'.elements]

end Placed

theorem placed_layoutElement (element : LadderElement) (x y : Int) (n : Nat) {frame : Rectangle}
    (h : Rectangle.Within ⟨x, y - elementHeight element / 2, elementWidth element,
      elementHeight element⟩ frame) :
    Placed frame n (n + 1) [element] (layoutElement element x y n).1.elements := by
  refine ⟨n.le_succ, ?_, List.pairwise_singleton _ _, ?_, rfl⟩
  · simpa [layoutElement, LayoutElement.rect] using h
  · simp [layoutElement, idRange]

@[simp] theorem wireBefore_elements (i : Nat) (cursor y : Int) :
    (wireBefore i cursor y).1.elements = [] := by
  unfold wireBefore
  split <;> rfl

@[simp] theorem wireBefore_cursor (i : Nat) (cursor y : Int) :
    (wireBefore i cursor y).2 = cursor + gap i WIRE_GAP := by
  unfold wireBefore gap
  split <;> simp

@[simp] theorem wireAfter_elements (branchX branchEndX pathY width maxWidth : Int) :
    (wireAfter branchX branchEndX pathY width maxWidth).elements = [] := by
  unfold wireAfter
  split <;> rfl

@[simp] theorem verticalLines_elements (branchX branchEndX : Int) (pathYPositions : List Int) :
    (verticalLines branchX branchEndX pathYPositions).elements = [] := by
  unfold verticalLines
  split <;> rfl

@[simp] theorem append_elements (d d' : Drawing) :
    (d.append d').elements = d.elements ++ d'.elements := rfl

/-! ## The layout of conditions

By recursion over the conditions; the frame of a tree hangs from the top of the contacts on its
wire, and the rest of a branch begins a gap above its next path. -/

mutual

/-- A condition is drawn in a frame of its width and height. -/
theorem layoutCondition_placed (c : LadderCondition) (x y : Int) (n : Nat) {r : LayoutResult}
    {n' : Nat} (h : layoutCondition c x y n = (r, n')) :
    r.width = width c ∧ r.height = height c ∧
      Placed ⟨x, y - 20, width c, height c⟩ n n' (contacts c) r.elements := by
  cases c with
  | contact type tag =>
    rw [layoutCondition] at h
    cases h
    refine ⟨rfl, rfl, placed_layoutElement _ x y n ?_⟩
    simp [Rectangle.Within, width, height, elementWidth, elementHeight, CONTACT_HEIGHT]
  | series elements =>
    rw [layoutCondition] at h
    rcases hseries : layoutSeries elements 0 x y CONTACT_HEIGHT n with ⟨d, cursor, m, n₁⟩
    rw [hseries] at h
    cases h
    obtain ⟨hcursor, hheight, hplaced⟩ :=
      layoutSeries_placed elements 0 x y CONTACT_HEIGHT n (by decide) hseries
    refine ⟨?_, by rw [height, hheight], hplaced.mono ?_⟩
    · rw [width, hcursor, add_sub_cancel_left]
    · simp [Rectangle.Within, width, height]
  | branch paths =>
    rw [layoutCondition] at h
    rcases hmeasure : measurePaths paths 0 0 0 n with ⟨maxWidth, totalHeight, n₁⟩
    obtain ⟨hwidth, hheight, hle⟩ := measurePaths_eq paths 0 0 0 n (le_refl 0) hmeasure
    rcases hlayout : layoutPaths paths x (x + maxWidth) maxWidth y n₁ with ⟨d, positions, n₂⟩
    simp only [hmeasure, hlayout] at h
    cases h
    have hplaced := layoutPaths_placed paths 0 x (x + maxWidth) maxWidth y n₁ hlayout
    have hnonneg := (paths_nonneg paths).1
    refine ⟨?_, ?_, ?_⟩
    · rw [width, hwidth, max_eq_right hnonneg]
    · rw [height, hheight, zero_add]
    · rw [append_elements, verticalLines_elements, List.append_nil, contacts, width, height]
      simpa [gap] using hplaced.later hle

/-- A series is drawn from left to right, and the cursor stands behind it. -/
theorem layoutSeries_placed (elements : List LadderCondition) (i : Nat) (cursor y m : Int) (n : Nat)
    (hm : 0 ≤ m) {d : Drawing} {cursor' m' : Int} {n' : Nat}
    (h : layoutSeries elements i cursor y m n = (d, cursor', m', n')) :
    cursor' = cursor + seriesWidth i elements ∧ m' = max m (seriesHeight elements) ∧
      Placed ⟨cursor, y - 20, seriesWidth i elements, seriesHeight elements⟩ n n'
        (contactsOf elements) d.elements := by
  cases elements with
  | nil =>
    rw [layoutSeries] at h
    cases h
    exact ⟨by simp [seriesWidth], by simpa [seriesHeight] using hm, Placed.nil _ n⟩
  | cons child elements =>
    rw [layoutSeries] at h
    rcases hwire : wireBefore i cursor y with ⟨wire, cursor₁⟩
    have hempty := wireBefore_elements i cursor y
    have hcursor₁ := wireBefore_cursor i cursor y
    rw [hwire] at hempty hcursor₁
    simp only at hempty hcursor₁
    rcases hchild : layoutCondition child cursor₁ y n with ⟨r, n₁⟩
    obtain ⟨hwidth, hheight, hplaced⟩ := layoutCondition_placed child cursor₁ y n hchild
    rcases hrest : layoutSeries elements (i + 1) (cursor₁ + r.width) y (max m r.height) n₁ with
      ⟨rest, cursor₂, m₂, n₂⟩
    obtain ⟨hcursor₂, hm₂, hplaced₂⟩ :=
      layoutSeries_placed elements (i + 1) _ y _ n₁ (hm.trans (le_max_left _ _)) hrest
    simp only [hwire, hchild, hrest] at h
    cases h
    have hgap := gap_nonneg i (g := WIRE_GAP) (by decide)
    have hchild_nonneg := size_nonneg child
    have hrest_nonneg := series_nonneg elements
    have hwidths := hrest_nonneg.1 (i + 1)
    refine ⟨?_, ?_, ?_⟩
    · rw [hcursor₂, hcursor₁, hwidth, seriesWidth]
      omega
    · rw [hm₂, hheight, seriesHeight, max_assoc]
    · rw [append_elements, append_elements, hempty, List.nil_append, contactsOf]
      apply hplaced.append hplaced₂
      · left
        simp only [hwidth, le_refl]
      · simp only [Rectangle.Within, seriesWidth, seriesHeight]
        omega
      · simp only [Rectangle.Within, seriesWidth, seriesHeight]
        omega

/-- The measuring pass finds the width and the height of the paths. -/
theorem measurePaths_eq (paths : List LadderCondition) (i : Nat) (maxWidth totalHeight : Int)
    (n : Nat) (hmax : 0 ≤ maxWidth) {maxWidth' totalHeight' : Int} {n' : Nat}
    (h : measurePaths paths i maxWidth totalHeight n = (maxWidth', totalHeight', n')) :
    maxWidth' = max maxWidth (pathsWidth paths) ∧
      totalHeight' = totalHeight + pathsHeight i paths ∧ n ≤ n' := by
  cases paths with
  | nil =>
    rw [measurePaths] at h
    cases h
    exact ⟨by simpa [pathsWidth] using hmax, by simp [pathsHeight], le_refl n⟩
  | cons path paths =>
    rw [measurePaths] at h
    rcases hpath : layoutCondition path 0 0 n with ⟨r, n₁⟩
    obtain ⟨hwidth, hheight, hplaced⟩ := layoutCondition_placed path 0 0 n hpath
    simp only [hpath] at h
    obtain ⟨hmax', htotal, hle⟩ :=
      measurePaths_eq paths (i + 1) _ _ n₁ (hmax.trans (le_max_left _ _)) h
    refine ⟨?_, ?_, hplaced.le.trans hle⟩
    · rw [hmax', hwidth, pathsWidth, max_assoc]
    · rw [htotal, hheight, pathsHeight, gap]
      split <;> omega

/-- The paths of a branch are drawn one under the other. -/
theorem layoutPaths_placed (paths : List LadderCondition) (i : Nat)
    (branchX branchEndX maxWidth pathY : Int) (n : Nat) {d : Drawing} {positions : List Int}
    {n' : Nat} (h : layoutPaths paths branchX branchEndX maxWidth pathY n = (d, positions, n')) :
    Placed ⟨branchX, pathY - 20 - gap i BRANCH_GAP, pathsWidth paths, pathsHeight i paths⟩ n n'
      (contactsOf paths) d.elements := by
  cases paths with
  | nil =>
    rw [layoutPaths] at h
    cases h
    exact Placed.nil _ n
  | cons path paths =>
    rw [layoutPaths] at h
    rcases hpath : layoutCondition path branchX pathY n with ⟨r, n₁⟩
    obtain ⟨hwidth, hheight, hplaced⟩ := layoutCondition_placed path branchX pathY n hpath
    rcases hrest : layoutPaths paths branchX branchEndX maxWidth
      (pathY + (r.height + BRANCH_GAP)) n₁ with ⟨rest, positions', n₂⟩
    have hplaced₂ := layoutPaths_placed paths (i + 1) branchX branchEndX maxWidth _ n₁ hrest
    simp only [hpath, hrest] at h
    cases h
    have hgap := gap_nonneg i (g := BRANCH_GAP) (by decide)
    have hnext : gap (i + 1) BRANCH_GAP = BRANCH_GAP := by simp [gap]
    have hpath_nonneg := size_nonneg path
    have hrest_nonneg := paths_nonneg paths
    have hheights := hrest_nonneg.2 (i + 1)
    rw [append_elements, append_elements, wireAfter_elements, List.append_nil, contactsOf]
    apply hplaced.append hplaced₂
    · -- the next path begins below the frame of this one
      right; right; left
      simp only [hheight, hnext]
      omega
    · simp only [Rectangle.Within, pathsWidth, pathsHeight]
      omega
    · simp only [Rectangle.Within, pathsWidth, pathsHeight, hheight, hnext]
      omega

end

/-! ## The layout of a rung -/

/-- The width of the outputs. -/
def outputsWidth (i : Nat) : List LadderOutput → Int
  | [] => 0
  | output :: outputs =>
    gap i WIRE_GAP + elementWidth (.output output) + outputsWidth (i + 1) outputs

theorem output_size (output : LadderOutput) :
    0 ≤ elementWidth (.output output) ∧ 0 ≤ elementHeight (.output output) ∧
      elementHeight (.output output) ≤ 70 := by
  cases output <;>
    simp [elementWidth, elementHeight, COIL_WIDTH, COIL_HEIGHT, TIMER_WIDTH, TIMER_HEIGHT,
      COUNTER_WIDTH, COUNTER_HEIGHT]

theorem outputsWidth_nonneg (i : Nat) (outputs : List LadderOutput) :
    0 ≤ outputsWidth i outputs := by
  induction outputs generalizing i with
  | nil => simp [outputsWidth]
  | cons output outputs ih =>
    have hgap := gap_nonneg i (g := WIRE_GAP) (by decide)
    have hsize := output_size output
    have hrest := ih (i + 1)
    rw [outputsWidth]
    omega

/-- The outputs lie beside each other; the highest of them, timers and counters, have 35 on both
sides of the wire. -/
theorem layoutOutputs_placed (outputs : List LadderOutput) (i : Nat) (cursor y : Int) (n : Nat)
    {d : Drawing} {cursor' : Int} {n' : Nat}
    (h : layoutOutputs outputs i cursor y n = (d, cursor', n')) :
    cursor' = cursor + outputsWidth i outputs ∧
      Placed ⟨cursor, y - 35, outputsWidth i outputs, 70⟩ n n' (outputs.map .output)
        d.elements := by
  induction outputs generalizing i cursor n d cursor' n' with
  | nil =>
    rw [layoutOutputs] at h
    cases h
    exact ⟨by simp [outputsWidth], Placed.nil _ _⟩
  | cons output outputs ih =>
    rw [layoutOutputs] at h
    rcases hwire : wireBefore i cursor y with ⟨wire, cursor₁⟩
    have hempty := wireBefore_elements i cursor y
    have hcursor₁ := wireBefore_cursor i cursor y
    rw [hwire] at hempty hcursor₁
    simp only at hempty hcursor₁
    rcases hrest : layoutOutputs outputs (i + 1) (cursor₁ + elementWidth (.output output)) y (n + 1)
      with ⟨rest, cursor₂, n₂⟩
    obtain ⟨hcursor₂, hplaced₂⟩ := ih _ _ _ hrest
    simp only [hwire, layoutOutput, layoutElement, hrest] at h
    cases h
    have hgap := gap_nonneg i (g := WIRE_GAP) (by decide)
    have hsize := output_size output
    have hwidths := outputsWidth_nonneg (i + 1) outputs
    constructor
    · rw [hcursor₂, hcursor₁, outputsWidth]
      omega
    · rw [append_elements, append_elements, hempty, List.nil_append, List.map_cons]
      have hplaced : Placed ⟨cursor₁, y - 35, elementWidth (.output output), 70⟩ n (n + 1)
          [.output output] (layoutElement (.output output) cursor₁ y n).1.elements :=
        placed_layoutElement (.output output) cursor₁ y n (by
          simp only [Rectangle.Within]
          omega)
      apply hplaced.append hplaced₂
      · left
        simp
      · simp only [Rectangle.Within, outputsWidth]
        omega
      · simp only [Rectangle.Within, outputsWidth]
        omega

/-- The lowest bottom is not above any element's. -/
theorem le_foldl_max (bottom : Int) (placed : List LayoutElement) :
    bottom ≤ placed.foldl (fun m el => max m (el.y + el.height)) bottom ∧
      ∀ e ∈ placed,
        e.y + e.height ≤ placed.foldl (fun m el => max m (el.y + el.height)) bottom := by
  induction placed generalizing bottom with
  | nil => simp
  | cons el placed ih =>
    obtain ⟨hbottom, hall⟩ := ih (max bottom (el.y + el.height))
    rw [List.foldl_cons]
    refine ⟨(le_max_left _ _).trans hbottom, ?_⟩
    intro e he
    obtain rfl | he := List.mem_cons.mp he
    · exact (le_max_right _ _).trans hbottom
    · exact hall e he

/-- The conditions and the outputs beside each other. -/
theorem layoutRung_placed (rung : Rung) :
    ∃ depth n, Placed ⟨0, 0, (layoutRung rung).totalWidth, depth⟩ 0 n
      (contactsOf rung.conditions ++ rung.outputs.map .output) (layoutRung rung).elements := by
  rcases hconditions : layoutSeries rung.conditions 0 RAIL_LEFT
    (RUNG_PADDING_Y + CONTACT_HEIGHT / 2) CONTACT_HEIGHT 0 with ⟨conditions, cursor, m, n⟩
  obtain ⟨hcursor, -, hplaced⟩ :=
    layoutSeries_placed rung.conditions 0 RAIL_LEFT _ CONTACT_HEIGHT 0 (by decide) hconditions
  rcases hwire : wireBefore (if 0 < rung.conditions.length ∧ 0 < rung.outputs.length then 1 else 0)
    cursor (RUNG_PADDING_Y + CONTACT_HEIGHT / 2) with ⟨wire, cursor₁⟩
  have hempty := wireBefore_elements
    (if 0 < rung.conditions.length ∧ 0 < rung.outputs.length then 1 else 0) cursor
    (RUNG_PADDING_Y + CONTACT_HEIGHT / 2)
  have hcursor₁ := wireBefore_cursor
    (if 0 < rung.conditions.length ∧ 0 < rung.outputs.length then 1 else 0) cursor
    (RUNG_PADDING_Y + CONTACT_HEIGHT / 2)
  rw [hwire] at hempty hcursor₁
  simp only at hempty hcursor₁
  rcases houtputs : layoutOutputs rung.outputs 0 cursor₁
    (RUNG_PADDING_Y + CONTACT_HEIGHT / 2) n with ⟨outputs, cursor₂, n₂⟩
  obtain ⟨hcursor₂, hplaced₂⟩ := layoutOutputs_placed rung.outputs 0 cursor₁ _ n houtputs
  have helements : (layoutRung rung).elements = conditions.elements ++ outputs.elements := by
    simp [layoutRung, hconditions, hwire, houtputs, hempty]
  have hwidth : (layoutRung rung).totalWidth = cursor₂ + RAIL_RIGHT_MARGIN := by
    simp [layoutRung, hconditions, hwire, houtputs]
  have hgap := gap_nonneg
    (if 0 < rung.conditions.length ∧ 0 < rung.outputs.length then 1 else 0) (g := WIRE_GAP)
    (by decide)
  have hconditions_nonneg := series_nonneg rung.conditions
  have hwidths := hconditions_nonneg.1 0
  have houtputs_nonneg := outputsWidth_nonneg 0 rung.outputs
  refine ⟨71 + seriesHeight rung.conditions, n₂, ?_⟩
  rw [helements, hwidth]
  apply hplaced.append hplaced₂
  · left
    simp only [RAIL_LEFT] at *
    omega
  · simp only [Rectangle.Within, RAIL_LEFT, RUNG_PADDING_Y, CONTACT_HEIGHT, RAIL_RIGHT_MARGIN] at *
    omega
  · simp only [Rectangle.Within, RAIL_LEFT, RUNG_PADDING_Y, CONTACT_HEIGHT, RAIL_RIGHT_MARGIN] at *
    omega

theorem bottom_le_totalHeight (rung : Rung) {e : LayoutElement}
    (he : e ∈ (layoutRung rung).elements) :
    e.y + e.height ≤ (layoutRung rung).totalHeight := by
  have hmax := (le_foldl_max (RUNG_PADDING_Y + CONTACT_HEIGHT / 2 + CONTACT_HEIGHT / 2)
    (layoutRung rung).elements).2 e he
  have hpadding : 0 ≤ RUNG_PADDING_Y := by decide
  exact hmax.trans (le_add_of_nonneg_right hpadding)

/-- The boxes of a rung have disjoint interiors, lie in the area of the layout, have
identifiers of their own, and are those of the contacts and the outputs of the rung, in their
order. -/
theorem layoutRung_sound (rung : Rung) :
    (layoutRung rung).elements.Pairwise
        (fun e e' => Disjoint (interior e.rect.region) (interior e'.rect.region)) ∧
      (∀ e ∈ (layoutRung rung).elements, e.rect.region ⊆
        Rectangle.region ⟨0, 0, (layoutRung rung).totalWidth, (layoutRung rung).totalHeight⟩) ∧
      ((layoutRung rung).elements.map LayoutElement.id).Nodup ∧
      (layoutRung rung).elements.map LayoutElement.element =
        contactsOf rung.conditions ++ rung.outputs.map .output := by
  obtain ⟨depth, n, hplaced⟩ := layoutRung_placed rung
  refine ⟨hplaced.apart.imp Rectangle.disjoint_interior, ?_, ?_, hplaced.elements⟩
  · intro e he
    apply Rectangle.region_subset
    obtain ⟨hleft, hright, htop, -⟩ := hplaced.within e he
    exact ⟨hleft, hright, htop, by simpa [LayoutElement.rect] using bottom_le_totalHeight rung he⟩
  · exact hplaced.ids.nodup (List.Nodup.map elId_injective List.nodup_range')

end LadderLayout
