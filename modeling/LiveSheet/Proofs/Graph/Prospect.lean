import LiveSheet.Proofs.Graph.Edges
import LiveSheet.Proofs.Graph.Walk
import LiveSheet.Sheet.Edit

namespace LiveSheet

open Relation

/-!
# A graph before and after a cell refers to other cells

An edit is looked at on a view of the graph in which the cell already refers to the new cells.

* `DependencyGraph.HasEdge` — the edges of a graph as a relation.
* `mem_prospectiveDependents` — the view redirects the edges to the cell.
* `Refines.hasEdge_replaceDependees` — so does the graph, once the edit is carried out.
* `prospectiveWalk_error_iff` — if the graph is acyclic, the walk over the view finds a cycle
  exactly when there is any in it.
-/

namespace DependencyGraph

section HasEdge

variable {N : Type} [Ord N] [Std.TransOrd N] {g : DependencyGraph N}

/-- `v` depends directly on `u`. -/
def HasEdge (g : DependencyGraph N) (u v : N) : Prop := v ∈ g.dependents u

/-- The edges of a graph are those that it says are present. -/
theorem hasEdge_iff_contains {u v : N} : g.HasEdge u v ↔ g.contains u v = true :=
  contains_iff.symm

variable [Std.LawfulEqOrd N]

/-- After an edit of the graph, the node has edges from the given nodes, and all other nodes have
    the edges that they had. -/
theorem Refines.hasEdge_replaceDependees [DecidableEq N] {edges : Finset (N × N)}
    (h : g.Refines edges) (node : N) (nodes : List N) (u v : N) :
    (g.replaceDependees node nodes).HasEdge u v ↔ Redirected g.HasEdge node (· ∈ nodes) u v := by
  rw [HasEdge, (h.replaceDependees node nodes).dependents, Redirected, HasEdge, h.dependents]
  simp only [Finset.mem_union, Finset.mem_filter, List.mem_toFinset, List.mem_map, Prod.mk.injEq]
  constructor
  · rintro (⟨hedge, hne⟩ | ⟨w, hw, rfl, rfl⟩)
    · exact Or.inr ⟨hne, hedge⟩
    · exact Or.inl ⟨rfl, hw⟩
  · rintro (⟨rfl, hu⟩ | ⟨hne, hedge⟩)
    · exact Or.inr ⟨u, hu, rfl, rfl⟩
    · exact Or.inl ⟨hedge, hne⟩

end HasEdge

section Prospect

variable {g : DependencyGraph CellName} {name : CellName} {references : Std.ExtTreeSet CellName}

/-- The view redirects the edges to the cell. -/
theorem mem_prospectiveDependents {u v : CellName} :
    v ∈ g.prospectiveDependents name references u ↔
      Redirected g.HasEdge name (· ∈ references) u v := by
  simp only [prospectiveDependents, Std.ExtTreeSet.mem_toList, Redirected, HasEdge]
  by_cases hv : v = name
  · subst hv
    by_cases hu : u ∈ references
    · simp [hu]
    · simp [hu]
  · have hne : compare name v ≠ .eq := fun h => hv (Std.LawfulEqOrd.eq_of_compare h).symm
    by_cases hu : u ∈ references
    · simp [hu, hv, hne]
    · simp [hu, hv, hne]

/-- **The edges of the view are the edges after the edit.** -/
theorem edge_prospectiveDependents :
    Edge (g.prospectiveDependents name references)
      = Redirected g.HasEdge name (· ∈ references) := by
  funext u v
  exact propext mem_prospectiveDependents

/-- **A cycle is found exactly when the edit would make one**, anywhere in the graph. -/
theorem prospectiveWalk_error_iff (h : Acyclic g.HasEdge) :
    (∃ cycle, (g.prospectiveWalk name references).result = .error cycle) ↔
      ¬ Acyclic (Redirected g.HasEdge name (· ∈ references)) := by
  rw [prospectiveWalk, recalcOrder_error_iff, edge_prospectiveDependents,
    acyclic_redirected_iff h, not_not]

end Prospect

end DependencyGraph

end LiveSheet
