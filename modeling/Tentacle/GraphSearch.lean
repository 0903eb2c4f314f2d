import Mathlib.Data.List.Basic
import Mathlib.Data.Set.Insert
import Mathlib.Logic.Relation

/-!
# Graph search

The nodes of a graph that are reachable from a set of roots, and the invariant of a search that
keeps a set of nodes to visit. The nodes to visit may be taken in any order and may be there more
than once. A search may give nodes up, provided that no edge leaves them. A depth-first search with a
limit visits the ends of those walks that are the first to come to a node.
-/

namespace GraphSearch

variable {α : Type*}

/-- A walk from a root ends in the node. -/
def Reachable (edge : α → α → Prop) (roots : Set α) (a : α) : Prop :=
  ∃ r ∈ roots, Relation.ReflTransGen edge r a

variable {edge : α → α → Prop} {roots found todo dropped : Set α} {a b : α}

theorem Reachable.root (h : a ∈ roots) : Reachable edge roots a := ⟨a, h, .refl⟩

theorem Reachable.step (h : Reachable edge roots a) (hedge : edge a b) :
    Reachable edge roots b := by
  obtain ⟨r, hr, hwalk⟩ := h
  exact ⟨r, hr, hwalk.tail hedge⟩

/-- What holds of the roots and goes along the edges holds of every reachable node. -/
theorem Reachable.induct {P : α → Prop} (h : Reachable edge roots a) (hroots : ∀ r ∈ roots, P r)
    (hedges : ∀ a b, P a → edge a b → P b) : P a := by
  obtain ⟨r, hr, hwalk⟩ := h
  induction hwalk with
  | refl => exact hroots r hr
  | tail _ hedge ih => exact hedges _ _ ih hedge

/-! ## Searches -/

/-- A search that has found some nodes and still has others to visit. -/
structure Explored (edge : α → α → Prop) (roots dropped found todo : Set α) : Prop where
  found_reachable : ∀ a ∈ found, Reachable edge roots a
  todo_reachable : ∀ a ∈ todo, Reachable edge roots a
  roots_covered : ∀ r ∈ roots, r ∈ found ∨ r ∈ todo ∨ r ∈ dropped
  edges_covered : ∀ a ∈ found, ∀ b, edge a b → b ∈ found ∨ b ∈ todo ∨ b ∈ dropped

theorem explored_start : Explored edge roots dropped ∅ roots where
  found_reachable _ h := h.elim
  todo_reachable _ h := .root h
  roots_covered _ h := .inr (.inl h)
  edges_covered _ h := h.elim

/-- A node that was found before, or that is given up, need not be visited. -/
theorem Explored.skip (h : Explored edge roots dropped found (insert a todo))
    (ha : a ∈ found ∨ a ∈ dropped) : Explored edge roots dropped found todo := by
  have hcovered : ∀ b, b ∈ found ∨ b ∈ insert a todo ∨ b ∈ dropped →
      b ∈ found ∨ b ∈ todo ∨ b ∈ dropped := by
    rintro b (hb | (rfl | hb) | hb)
    · exact .inl hb
    · exact ha.imp id .inr
    · exact .inr (.inl hb)
    · exact .inr (.inr hb)
  exact {
    found_reachable := h.found_reachable
    todo_reachable := fun b hb => h.todo_reachable b (.inr hb)
    roots_covered := fun r hr => hcovered r (h.roots_covered r hr)
    edges_covered := fun b hb c hedge => hcovered c (h.edges_covered b hb c hedge) }

/-- A node is visited: its edges lead to nodes that were found before, to nodes that are visited
later, or to nodes that are given up. -/
theorem Explored.visit {next : Set α} (h : Explored edge roots dropped found (insert a todo))
    (hnext : ∀ b ∈ next, edge a b)
    (hedges : ∀ b, edge a b → b ∈ insert a found ∨ b ∈ next ∨ b ∈ dropped) :
    Explored edge roots dropped (insert a found) (todo ∪ next) := by
  have ha : Reachable edge roots a := h.todo_reachable a (.inl rfl)
  have hcovered : ∀ b, b ∈ found ∨ b ∈ insert a todo ∨ b ∈ dropped →
      b ∈ insert a found ∨ b ∈ todo ∪ next ∨ b ∈ dropped := by
    rintro b (hb | (rfl | hb) | hb)
    · exact .inl (.inr hb)
    · exact .inl (.inl rfl)
    · exact .inr (.inl (.inl hb))
    · exact .inr (.inr hb)
  constructor
  · rintro b (rfl | hb)
    · exact ha
    · exact h.found_reachable b hb
  · rintro b (hb | hb)
    · exact h.todo_reachable b (.inr hb)
    · exact ha.step (hnext b hb)
  · exact fun r hr => hcovered r (h.roots_covered r hr)
  · rintro b (rfl | hb) c hedge
    · exact (hedges c hedge).imp id (Or.imp .inr id)
    · exact hcovered c (h.edges_covered b hb c hedge)

/-- A search without nodes to visit has found what is reachable, but for what it gave up. -/
theorem Explored.exact (h : Explored edge roots dropped found ∅)
    (hdropped : ∀ a ∈ dropped, ∀ b, ¬edge a b) (ha : a ∉ dropped) :
    Reachable edge roots a ↔ a ∈ found := by
  constructor
  · intro hreach
    have hcovered : a ∈ found ∨ a ∈ dropped := by
      apply hreach.induct
      · intro r hr
        exact (h.roots_covered r hr).imp id (Or.resolve_left · id)
      · rintro b c (hb | hb) hedge
        · exact (h.edges_covered b hb c hedge).imp id (Or.resolve_left · id)
        · exact absurd hedge (hdropped b hb c)
    exact hcovered.resolve_right ha
  · exact h.found_reachable a

/-! ## Searches with a limit -/

/-- A walk of that many edges ends in the node. -/
inductive Hops (edge : α → α → Prop) (start : α) : Nat → α → Prop
  | start : Hops edge start 0 start
  | step {k : Nat} {a b : α} : Hops edge start k a → edge a b → Hops edge start (k + 1) b

/-- A walk: which edge of each node it takes, the last hop first, and the node it ends in. -/
structure Walk (α : Type*) where
  hops : List Nat
  last : α

section DepthFirst

variable (next : α → List α)

/-- The walk and those that go on from it with at most so many hops, each before the walks that go
on from it. -/
def walksFrom : Nat → Walk α → List (Walk α)
  | 0, w => [w]
  | n + 1, w => w :: (next w.last).zipIdx.flatMap fun p => walksFrom n ⟨p.2 :: w.hops, p.1⟩

variable [DecidableEq α]

/-- A walk is followed if the walk without its last hop is, and no walk that is followed ends in the
same node. -/
def follow (followed : List (Walk α)) (w : Walk α) : List (Walk α) :=
  if (w.hops = [] ∨ w.hops.tail ∈ followed.map Walk.hops) ∧ w.last ∉ followed.map Walk.last then
    w :: followed
  else followed

/-- The walks of at most so many hops that are followed, when each comes in its turn. -/
def followed (limit : Nat) (start : α) : List (Walk α) :=
  (walksFrom next limit ⟨[], start⟩).foldl follow []

variable {next} {w x : Walk α} {fs ws : List (Walk α)} {n : Nat}

end DepthFirst

end GraphSearch
