import Mathlib.Logic.Basic

/-!
# Series-parallel networks of instructions

A network carries one bit through instructions that may also change a state. In series each
element gets the bit of the one before it; in a branch every path gets the bit of the branch, all
paths run, and the bits at their ends are joined by "or".
-/

namespace SeriesParallel

inductive Network (I : Type) where
  | leaf (i : I)
  | branch (paths : List (List (Network I)))
  | series (elements : List (Network I))

variable {I J σ τ : Type}

section Eval

variable (f : I → Bool → σ → Bool × σ)

mutual

def eval : Network I → Bool → σ → Bool × σ
  | .leaf i, b, s => f i b s
  | .branch paths, b, s => evalPaths paths b s
  | .series elements, b, s => evalSeries elements b s

def evalSeries : List (Network I) → Bool → σ → Bool × σ
  | [], b, s => (b, s)
  | e :: es, b, s => evalSeries es (eval e b s).1 (eval e b s).2

def evalPaths : List (List (Network I)) → Bool → σ → Bool × σ
  | [], _, s => (false, s)
  | p :: ps, b, s =>
    ((evalSeries p b s).1 || (evalPaths ps b (evalSeries p b s).2).1,
      (evalPaths ps b (evalSeries p b s).2).2)

end

end Eval

mutual

/-- The instructions of a network. -/
def leaves : Network I → List I
  | .leaf i => [i]
  | .branch paths => pathLeaves paths
  | .series elements => seriesLeaves elements

def seriesLeaves : List (Network I) → List I
  | [] => []
  | e :: es => leaves e ++ seriesLeaves es

def pathLeaves : List (List (Network I)) → List I
  | [] => []
  | p :: ps => seriesLeaves p ++ pathLeaves ps

end

mutual

def mapLeaves (g : I → J) : Network I → Network J
  | .leaf i => .leaf (g i)
  | .branch paths => .branch (mapPaths g paths)
  | .series elements => .series (mapSeries g elements)

def mapSeries (g : I → J) : List (Network I) → List (Network J)
  | [] => []
  | e :: es => mapLeaves g e :: mapSeries g es

def mapPaths (g : I → J) : List (List (Network I)) → List (List (Network J))
  | [] => []
  | p :: ps => mapSeries g p :: mapPaths g ps

end

/-- The instruction, with a log of the instructions and the bits they got. -/
def traced (f : I → Bool → σ → Bool × σ) (i : I) (b : Bool) (x : σ × List (I × Bool)) :
    Bool × σ × List (I × Bool) :=
  ((f i b x.1).1, (f i b x.1).2, x.2 ++ [(i, b)])

/-- Series one after the other, each with a true bit at its start. -/
def evalRungs (f : I → Bool → σ → Bool × σ) (rungs : List (List (Network I))) (s : σ) : σ :=
  rungs.foldl (fun s es => (evalSeries f es true s).2) s

theorem evalSeries_append (f : I → Bool → σ → Bool × σ) (es es' : List (Network I)) (b : Bool)
    (s : σ) :
    evalSeries f (es ++ es') b s =
      evalSeries f es' (evalSeries f es b s).1 (evalSeries f es b s).2 := by
  induction es generalizing b s with
  | nil => simp [evalSeries]
  | cons e es ih => simp [evalSeries, ih]

/-! ## Invariants and simulations

What holds of each instruction holds of the network: by recursion over the network, its lists of
elements and its lists of paths together. -/

section Invariant

variable {f : I → Bool → σ → Bool × σ} {P : σ → Prop}

mutual

theorem eval_invariant (e : Network I)
    (h : ∀ i ∈ leaves e, ∀ b s, P s → P (f i b s).2) (b : Bool) (s : σ) (hs : P s) :
    P (eval f e b s).2 := by
  cases e with
  | leaf i =>
    rw [eval]
    exact h i (by simp [leaves]) b s hs
  | branch paths =>
    rw [eval]
    exact evalPaths_invariant paths (by simpa [leaves] using h) b s hs
  | series elements =>
    rw [eval]
    exact evalSeries_invariant elements (by simpa [leaves] using h) b s hs

theorem evalSeries_invariant (es : List (Network I))
    (h : ∀ i ∈ seriesLeaves es, ∀ b s, P s → P (f i b s).2) (b : Bool) (s : σ) (hs : P s) :
    P (evalSeries f es b s).2 := by
  cases es with
  | nil =>
    rw [evalSeries]
    exact hs
  | cons e es =>
    rw [evalSeries]
    apply evalSeries_invariant es fun i hi => h i (by simp [seriesLeaves, hi])
    exact eval_invariant e (fun i hi => h i (by simp [seriesLeaves, hi])) b s hs

theorem evalPaths_invariant (ps : List (List (Network I)))
    (h : ∀ i ∈ pathLeaves ps, ∀ b s, P s → P (f i b s).2) (b : Bool) (s : σ) (hs : P s) :
    P (evalPaths f ps b s).2 := by
  cases ps with
  | nil =>
    rw [evalPaths]
    exact hs
  | cons p ps =>
    rw [evalPaths]
    apply evalPaths_invariant ps fun i hi => h i (by simp [pathLeaves, hi])
    exact evalSeries_invariant p (fun i hi => h i (by simp [pathLeaves, hi])) b s hs

end

end Invariant

section Simulation

variable {f : I → Bool → σ → Bool × σ} {g : J → Bool → τ → Bool × τ} {m : I → J}
  {R : σ → τ → Prop}

/-- Related states give the same bit and related states. -/
def Agree (R : σ → τ → Prop) (x : Bool × σ) (y : Bool × τ) : Prop := x.1 = y.1 ∧ R x.2 y.2

mutual

theorem eval_simulation (e : Network I)
    (h : ∀ i ∈ leaves e, ∀ b s t, R s t → Agree R (f i b s) (g (m i) b t)) (b : Bool) (s : σ)
    (t : τ) (hst : R s t) : Agree R (eval f e b s) (eval g (mapLeaves m e) b t) := by
  cases e with
  | leaf i =>
    rw [mapLeaves, eval, eval]
    exact h i (by simp [leaves]) b s t hst
  | branch paths =>
    rw [mapLeaves, eval, eval]
    exact evalPaths_simulation paths (by simpa [leaves] using h) b s t hst
  | series elements =>
    rw [mapLeaves, eval, eval]
    exact evalSeries_simulation elements (by simpa [leaves] using h) b s t hst

/-- A series of related instructions is related to the mapped one. -/
theorem evalSeries_simulation (es : List (Network I))
    (h : ∀ i ∈ seriesLeaves es, ∀ b s t, R s t → Agree R (f i b s) (g (m i) b t)) (b : Bool)
    (s : σ) (t : τ) (hst : R s t) :
    Agree R (evalSeries f es b s) (evalSeries g (mapSeries m es) b t) := by
  cases es with
  | nil =>
    rw [mapSeries, evalSeries, evalSeries]
    exact ⟨rfl, hst⟩
  | cons e es =>
    rw [mapSeries, evalSeries, evalSeries]
    obtain ⟨hbit, hrel⟩ :=
      eval_simulation e (fun i hi => h i (by simp [seriesLeaves, hi])) b s t hst
    rw [← hbit]
    exact evalSeries_simulation es (fun i hi => h i (by simp [seriesLeaves, hi])) _ _ _ hrel

theorem evalPaths_simulation (ps : List (List (Network I)))
    (h : ∀ i ∈ pathLeaves ps, ∀ b s t, R s t → Agree R (f i b s) (g (m i) b t)) (b : Bool)
    (s : σ) (t : τ) (hst : R s t) :
    Agree R (evalPaths f ps b s) (evalPaths g (mapPaths m ps) b t) := by
  cases ps with
  | nil =>
    rw [mapPaths, evalPaths, evalPaths]
    exact ⟨rfl, hst⟩
  | cons p ps =>
    rw [mapPaths, evalPaths, evalPaths]
    obtain ⟨hbit, hrel⟩ :=
      evalSeries_simulation p (fun i hi => h i (by simp [pathLeaves, hi])) b s t hst
    obtain ⟨hbits, hrels⟩ :=
      evalPaths_simulation ps (fun i hi => h i (by simp [pathLeaves, hi])) b _ _ hrel
    exact ⟨by simp only [hbit, hbits], hrels⟩

end

mutual

theorem mapLeaves_id (e : Network I) : mapLeaves id e = e := by
  cases e with
  | leaf i => rfl
  | branch paths => rw [mapLeaves, mapPaths_id paths]
  | series elements => rw [mapLeaves, mapSeries_id elements]

theorem mapSeries_id (es : List (Network I)) : mapSeries id es = es := by
  cases es with
  | nil => rfl
  | cons e es => rw [mapSeries, mapLeaves_id e, mapSeries_id es]

theorem mapPaths_id (ps : List (List (Network I))) : mapPaths id ps = ps := by
  cases ps with
  | nil => rfl
  | cons p ps => rw [mapPaths, mapSeries_id p, mapPaths_id ps]

end

/-- The log changes nothing of what is logged. -/
theorem evalSeries_traced (f : I → Bool → σ → Bool × σ) (es : List (Network I)) (b : Bool)
    (x : σ × List (I × Bool)) :
    (evalSeries (traced f) es b x).1 = (evalSeries f es b x.1).1 ∧
      (evalSeries (traced f) es b x).2.1 = (evalSeries f es b x.1).2 := by
  have h := evalSeries_simulation (f := traced f) (g := f) (m := id)
    (R := fun (x : σ × List (I × Bool)) s => x.1 = s) es
    (fun i _ b x s hx => by subst hx; exact ⟨rfl, rfl⟩) b x x.1 rfl
  rw [mapSeries_id] at h
  exact h

end Simulation

/-! ## Traces

A reading of the state that every instruction changes by a function of its own is the fold of that
function over the log. -/

section Trace

variable {β : Type} {f : I → Bool → σ → Bool × σ} {g : σ → β} {E : β → I × Bool → β}

/-- What the instructions do to a part of the state is read off their trace. -/
theorem evalRungs_traced (h : ∀ i b s, g (f i b s).2 = E (g s) (i, b))
    (rungs : List (List (Network I))) (s : σ) :
    g (evalRungs f rungs s) = (evalRungs (traced f) rungs (s, [])).2.foldl E (g s) := by
  suffices hall : ∀ x : σ × List (I × Bool), g x.1 = x.2.foldl E (g s) →
      g (evalRungs f rungs x.1) = (evalRungs (traced f) rungs x).2.foldl E (g s) from
    hall (s, []) rfl
  unfold evalRungs
  induction rungs with
  | nil => exact fun x hx => hx
  | cons es rungs ih =>
    intro x hx
    rw [List.foldl_cons, List.foldl_cons, ← (evalSeries_traced f es true x).2]
    apply ih
    refine evalSeries_invariant (f := traced f)
      (P := fun x : σ × List (I × Bool) => g x.1 = x.2.foldl E (g s)) es ?_ true x hx
    intro i _ b x hx
    rw [traced, h, hx, List.foldl_append]
    rfl

end Trace

/-! ## Routes

A route goes through one path of each branch on its way. Instructions that pass the bit on or
stop it, and change nothing, pass a network's bit exactly if they pass it along some route. -/

mutual

def routes : Network I → List (List I)
  | .leaf i => [[i]]
  | .branch paths => pathRoutes paths
  | .series elements => seriesRoutes elements

def seriesRoutes : List (Network I) → List (List I)
  | [] => [[]]
  | e :: es => (routes e).flatMap fun r => (seriesRoutes es).map (r ++ ·)

def pathRoutes : List (List (Network I)) → List (List I)
  | [] => []
  | p :: ps => seriesRoutes p ++ pathRoutes ps

end

section Routes

variable {f : I → Bool → σ → Bool × σ} {c : I → σ → Bool}

mutual

theorem eval_routes (e : Network I) (h : ∀ i ∈ leaves e, ∀ b s, f i b s = (b && c i s, s))
    (b : Bool) (s : σ) : eval f e b s = (b && (routes e).any fun r => r.all (c · s), s) := by
  cases e with
  | leaf i =>
    rw [eval, h i (by simp [leaves])]
    simp [routes]
  | branch paths =>
    rw [eval, routes]
    exact evalPaths_routes paths (by simpa [leaves] using h) b s
  | series elements =>
    rw [eval, routes]
    exact evalSeries_routes elements (by simpa [leaves] using h) b s

/-- A series passes a bit if one of its routes is closed. -/
theorem evalSeries_routes (es : List (Network I))
    (h : ∀ i ∈ seriesLeaves es, ∀ b s, f i b s = (b && c i s, s)) (b : Bool) (s : σ) :
    evalSeries f es b s = (b && (seriesRoutes es).any fun r => r.all (c · s), s) := by
  cases es with
  | nil => simp [evalSeries, seriesRoutes]
  | cons e es =>
    rw [evalSeries, eval_routes e fun i hi => h i (by simp [seriesLeaves, hi]),
      evalSeries_routes es fun i hi => h i (by simp [seriesLeaves, hi])]
    simp only [seriesRoutes, List.any_flatMap, List.any_map, Function.comp_def, List.all_append,
      Bool.and_assoc]
    congr 2
    apply Bool.eq_iff_iff.mpr
    simp only [Bool.and_eq_true, List.any_eq_true]
    constructor
    · rintro ⟨⟨r, hr, hfirst⟩, r', hr', hrest⟩
      exact ⟨r, hr, r', hr', hfirst, hrest⟩
    · rintro ⟨r, hr, r', hr', hfirst, hrest⟩
      exact ⟨⟨r, hr, hfirst⟩, r', hr', hrest⟩

theorem evalPaths_routes (ps : List (List (Network I)))
    (h : ∀ i ∈ pathLeaves ps, ∀ b s, f i b s = (b && c i s, s)) (b : Bool) (s : σ) :
    evalPaths f ps b s = (b && (pathRoutes ps).any fun r => r.all (c · s), s) := by
  cases ps with
  | nil => simp [evalPaths, pathRoutes]
  | cons p ps =>
    rw [evalPaths, evalSeries_routes p fun i hi => h i (by simp [pathLeaves, hi]),
      evalPaths_routes ps fun i hi => h i (by simp [pathLeaves, hi]), pathRoutes, List.any_append,
      Bool.and_or_distrib_left]

end

end Routes

end SeriesParallel
