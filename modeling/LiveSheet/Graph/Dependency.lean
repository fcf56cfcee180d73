import LiveSheet.Graph.Walk
import Std.Data.ExtTreeMap.Lemmas

namespace LiveSheet

/-!
# Dependency graphs

An edge from a *dependee* to a *dependent* says that the dependent is computed from the dependee.
The edges are kept twice, by dependee and by dependent, with their number.

* `Adjacency` — one direction of the edges; a node without neighbours has no entry.
* `DependencyGraph` — both directions and the number of edges.
* `DependencyGraph.link`, `unlink` — every edit is made of these, so both directions stay equal.
* `DependencyGraph.walk` — the order of recalculation over the graph.
-/

variable {N : Type} [Ord N] [Std.TransOrd N]

/-! ### One direction -/

/-- For each node that has neighbours, the set of them. -/
abbrev Adjacency (N : Type) [Ord N] := Std.ExtTreeMap N (Std.ExtTreeSet N)

namespace Adjacency

/-- The neighbours of a node. -/
def neighbours (a : Adjacency N) (node : N) : Std.ExtTreeSet N := (a[node]?).getD ∅

/-- Adds a neighbour. -/
def link (a : Adjacency N) (node neighbour : N) : Adjacency N :=
  a.insert node ((a.neighbours node).insert neighbour)

/-- Removes a neighbour, and the entry of a node whose last neighbour it was. -/
def unlink (a : Adjacency N) (node neighbour : N) : Adjacency N :=
  let rest := (a.neighbours node).erase neighbour
  if rest.isEmpty then a.erase node else a.insert node rest

end Adjacency

/-! ### The graph -/

/-- Edges from dependees to dependents. -/
structure DependencyGraph (N : Type) [Ord N] where
  /-- For each node, the nodes that depend on it. -/
  byDependee : Adjacency N
  /-- For each node, the nodes it depends on. -/
  byDependent : Adjacency N
  /-- The number of edges. -/
  size : Nat

namespace DependencyGraph

/-- The graph without edges. -/
def empty : DependencyGraph N := ⟨∅, ∅, 0⟩

instance : EmptyCollection (DependencyGraph N) := ⟨empty⟩

/-- Whether the graph has no edges. -/
def isEmpty (g : DependencyGraph N) : Bool := g.size == 0

/-- The nodes that depend directly on a node. -/
def dependents (g : DependencyGraph N) (node : N) : Std.ExtTreeSet N := g.byDependee.neighbours node

/-- The nodes that a node depends on directly. -/
def dependees (g : DependencyGraph N) (node : N) : Std.ExtTreeSet N := g.byDependent.neighbours node

/-- Whether an edge is present. -/
def contains (g : DependencyGraph N) (dependee dependent : N) : Bool :=
  (g.dependents dependee).contains dependent

/-- Whether any node depends on a node. -/
def hasDependents (g : DependencyGraph N) (node : N) : Bool := g.byDependee.contains node

/-- Whether a node depends on any node. -/
def hasDependees (g : DependencyGraph N) (node : N) : Bool := g.byDependent.contains node

/-- Adds an edge if it is absent. -/
def link (g : DependencyGraph N) (dependee dependent : N) : DependencyGraph N :=
  if g.contains dependee dependent then g
  else ⟨g.byDependee.link dependee dependent, g.byDependent.link dependent dependee, g.size + 1⟩

/-- Removes an edge if it is present. -/
def unlink (g : DependencyGraph N) (dependee dependent : N) : DependencyGraph N :=
  if g.contains dependee dependent then
    ⟨g.byDependee.unlink dependee dependent, g.byDependent.unlink dependent dependee, g.size - 1⟩
  else g

/-- Makes the given nodes the only ones that depend on a node. -/
def replaceDependents (g : DependencyGraph N) (node : N) (nodes : List N) : DependencyGraph N :=
  let cleared := (g.dependents node).toList.foldl (fun h t => h.unlink node t) g
  nodes.foldl (fun h t => h.link node t) cleared

/-- Makes the given nodes the only ones that a node depends on. -/
def replaceDependees (g : DependencyGraph N) (node : N) (nodes : List N) : DependencyGraph N :=
  let cleared := (g.dependees node).toList.foldl (fun h s => h.unlink s node) g
  nodes.foldl (fun h s => h.link s node) cleared

/-! ### Walks -/

/-- All nodes that depend on some node. -/
def allDependents (g : DependencyGraph N) : List N :=
  g.byDependee.toList.flatMap fun entry => entry.2.toList

/-- The dependents of any node are among all dependents of the graph. -/
theorem mem_allDependents [Std.LawfulEqOrd N] {g : DependencyGraph N} {m n : N}
    (h : n ∈ g.dependents m) : n ∈ g.allDependents := by
  unfold dependents Adjacency.neighbours at h
  cases hm : g.byDependee[m]? with
  | none =>
    rw [hm] at h
    exact absurd h Std.ExtTreeSet.not_mem_empty
  | some nodes =>
    rw [hm] at h
    exact List.mem_flatMap.2
      ⟨(m, nodes), Std.ExtTreeMap.mem_toList_iff_getElem?_eq_some.2 hm,
        Std.ExtTreeSet.mem_toList.2 h⟩

/-- From any node of a graph only finitely many nodes can be reached. -/
theorem finitelyReachable [Std.LawfulEqOrd N] (g : DependencyGraph N) (start : N) :
    FinitelyReachable (fun n => (g.dependents n).toList) start :=
  finitelyReachable_of_mem g.allDependents
    (fun _ _ h => mem_allDependents (Std.ExtTreeSet.mem_toList.1 h)) start

/-- The order of recalculation from a node; direct dependents are taken in increasing order. -/
def walk [Std.LawfulEqOrd N] [DecidableEq N] (g : DependencyGraph N) (start : N) : Walk N :=
  recalcOrder (fun n => (g.dependents n).toList) start (g.finitelyReachable start)

end DependencyGraph

/-! ### Relations given as lists -/

/-- The dependents of a node in a list of nodes with their dependents. -/
def tableDependents [DecidableEq N] (table : List (N × List N)) (node : N) : List N :=
  (table.lookup node).getD []

omit [Ord N] [Std.TransOrd N] in
/-- A table lists finitely many nodes, so only finitely many can be reached in it. -/
theorem finitelyReachable_tableDependents [DecidableEq N] (table : List (N × List N)) (start : N) :
    FinitelyReachable (tableDependents table) start :=
  finitelyReachable_of_mem (table.flatMap Prod.snd) (fun m n h => by
    unfold tableDependents at h
    cases hm : table.lookup m with
    | none =>
      rw [hm] at h
      exact absurd h List.not_mem_nil
    | some nodes =>
      rw [hm] at h
      obtain ⟨l₁, l₂, rfl, -⟩ := List.lookup_eq_some_iff.1 hm
      exact List.mem_flatMap.2
        ⟨(m, nodes), List.mem_append_right _ List.mem_cons_self, h⟩) start

/-- The order of recalculation over a list of nodes with their dependents. -/
def walkTable [Std.LawfulEqOrd N] [DecidableEq N] (table : List (N × List N)) (start : N) :
    Walk N :=
  recalcOrder (tableDependents table) start (finitelyReachable_tableDependents table start)

end LiveSheet
