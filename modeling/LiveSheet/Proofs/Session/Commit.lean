import LiveSheet.Proofs.Graph.Prospect
import LiveSheet.Proofs.Graph.Simulation
import LiveSheet.Proofs.Session.Invariant

namespace LiveSheet

/-!
# An edit before and after it is carried out

Whether an edit would close a cycle is asked of a view of the graph, and the graph is changed only
afterwards.  The view has each node's dependents without the edited cell, puts the cell back where
the new contents refer to the node, and sorts; the edit takes single edges out of both directions of
the graph and puts others in.  Both give every node the same dependents in the same order.

* `inOrder` — nodes that were listed in any order, in increasing order.
* `DependencyGraph.Lists` — a listing of the dependents of all nodes, in any order.
* `DependencyGraph.viewed` — the view, made from such a listing.
* `DependencyGraph.prospectiveDependents_eq` — the view has the dependents of the changed graph.
* `DependencyGraph.prospectiveWalk_eq_walk` — so a walk over the view is a walk over that graph.
-/

/-! ### Sets listed in any order -/

section InOrder

variable {N : Type} [Ord N] [Std.TransOrd N] [Std.LawfulEqOrd N]

/-- The nodes in increasing order. -/
def inOrder (nodes : List N) : List N := nodes.mergeSort fun m n => (compare m n).isLE

/-- In whatever order a set is listed, in increasing order it is listed as ever. -/
theorem inOrder_of_perm {listed : List N} {nodes : Std.ExtTreeSet N}
    (h : listed.Perm nodes.toList) : inOrder listed = nodes.toList := by
  have hlisted : (inOrder listed).Pairwise fun m n => (compare m n).isLE = true := by
    refine List.pairwise_mergeSort (fun _ _ _ => Std.TransCmp.isLE_trans) (fun m n => ?_) listed
    rw [Bool.or_eq_true]
    refine or_iff_not_imp_left.2 fun hnot => ?_
    rw [Std.OrientedCmp.lt_of_not_isLE hnot]
    rfl
  have hnodes : nodes.toList.Pairwise fun m n => (compare m n).isLE = true := by
    refine Std.ExtTreeSet.ordered_toList.imp fun hlt => ?_
    rw [hlt]
    rfl
  refine List.Perm.eq_of_pairwise ?_ hlisted hnodes ((List.mergeSort_perm _ _).trans h)
  intro m n _ _ hmn hnm
  exact Std.LawfulEqOrd.eq_of_compare (Std.OrientedCmp.isLE_antisymm hmn hnm)

end InOrder

namespace DependencyGraph

/-- A listing of the dependents of each node, in any order. -/
def Lists (g : DependencyGraph CellName) (listing : CellName → List CellName) : Prop :=
  ∀ n, (listing n).Perm (g.dependents n).toList

/-- The dependents of a node on the view: those listed but `name`, and `name` where the references
    say so, in increasing order. -/
def viewed (listing : CellName → List CellName) (name : CellName)
    (references : Std.ExtTreeSet CellName) (node : CellName) : List CellName :=
  inOrder ((listing node).filter (· ≠ name) ++ if references.contains node then [name] else [])

variable {g : DependencyGraph CellName} {name : CellName} {references : Std.ExtTreeSet CellName}
  {listing : CellName → List CellName}

/-- The view does not depend on the order in which the dependents are listed. -/
theorem Lists.viewed_eq (h : g.Lists listing) :
    viewed listing name references = g.prospectiveDependents name references := by
  funext u
  have hlisted : (listing u).Nodup := (h u).nodup_iff.2 (nodup_toList _)
  -- Both lists are without duplicates and have the same members, so sorted they are equal.
  refine inOrder_of_perm ((List.perm_ext_iff_of_nodup ?_ (nodup_toList _)).2 fun v => ?_)
  · refine (hlisted.filter _).append ?_ fun v hv hname => ?_
    · split
      · exact List.nodup_singleton name
      · exact List.nodup_nil
    · split at hname
      · rw [List.mem_singleton.1 hname] at hv
        simp at hv
      · exact List.not_mem_nil hname
  · show _ ↔ v ∈ g.prospectiveDependents name references u
    rw [mem_prospectiveDependents, List.mem_append, List.mem_filter, (h u).mem_iff, or_comm,
      Std.ExtTreeSet.mem_toList, decide_eq_true_eq, and_comm]
    refine or_congr_left ?_
    by_cases hu : u ∈ references
    · simp [hu]
    · simp [hu]

/-- **The view has the dependents of the graph after the edit**, node by node and in order. -/
theorem prospectiveDependents_eq {edges : Finset (CellName × CellName)} (h : g.Refines edges)
    {nodes : List CellName} (hnodes : ∀ n, n ∈ nodes ↔ n ∈ references) :
    g.prospectiveDependents name references
      = fun n => ((g.replaceDependees name nodes).dependents n).toList := by
  funext u
  refine congrArg Std.ExtTreeSet.toList (Std.ExtTreeSet.ext_mem fun v => ?_)
  have hview : v ∈ g.prospectiveDependents name references u ↔
      Redirected g.HasEdge name (· ∈ references) u v := mem_prospectiveDependents
  have hafter := h.hasEdge_replaceDependees name nodes u v
  simp only [hnodes] at hafter
  exact (Std.ExtTreeSet.mem_toList.symm.trans hview).trans hafter.symm

end DependencyGraph

/-! ### Walks and edits -/

/-- Walks along the same dependents are the same walk. -/
theorem exists_recalcOrder_eq {N : Type} [Ord N] [Std.TransOrd N] [Std.LawfulEqOrd N]
    [DecidableEq N] {dependents dependents' : N → List N} {start : N} (h : dependents = dependents')
    (finite' : FinitelyReachable dependents' start) :
    ∃ finite, recalcOrder dependents start finite = recalcOrder dependents' start finite' := by
  subst h
  exact ⟨finite', rfl⟩

/-- An edit is refused with the cycle that the walk over the view has found. -/
theorem Sheet.set_eq_circular_iff {s : Sheet} {name : CellName} {contents : Option Contents}
    {cycle : List CellName} : s.set name contents = .error (.circular cycle) ↔
      (s.graph.prospectiveWalk name (newReferences contents)).result = .error cycle := by
  unfold set
  cases (s.graph.prospectiveWalk name (newReferences contents)).result with
  | ok order => simp
  | error found => simp

namespace DependencyGraph

/-- **A walk over the view is a walk over the graph after the edit.**  After any edits of a graph,
    with or without cycles, for every cell and all references that it may get:
    * The walk over the view asks for the dependents of the same nodes and has the same result,
      order or cycle, as the walk over the graph in which the dependees of the cell are replaced by
      the references, listed in any order and any number of times.
    * Neither depends on the order in which sets are listed: the dependents are sorted, on the view
      after the cell was taken out and put back, and in the graph as they are.
    * A sheet with this graph refuses the edit with that cycle and is as it was, or accepts it with
      that order and has the changed graph. -/
theorem prospectiveWalk_eq_walk (edits : List (GraphEdit CellName)) (name : CellName)
    (references : Std.ExtTreeSet CellName) :
    let g : DependencyGraph CellName := edits.foldl GraphEdit.perform ∅
    let view := g.prospectiveWalk name references
    (∀ nodes : List CellName, (∀ n, n ∈ nodes ↔ n ∈ references) →
      view = (g.replaceDependees name nodes).walk name ∧
      ∀ listing, (g.replaceDependees name nodes).Lists listing →
        ∃ finite, recalcOrder (fun n => inOrder (listing n)) name finite = view) ∧
    (∀ listing, g.Lists listing →
      ∃ finite, recalcOrder (viewed listing name references) name finite = view) ∧
    ∀ (s : Session) (contents : Option Contents), s.sheet.graph = g →
      Sheet.newReferences contents = references →
      (∀ cycle, view.result = .error cycle →
        s.attempt (.set name contents) = .error (.edit (.circular cycle)) ∧
        s.perform (.set name contents) = s) ∧
      ∀ order, view.result = .ok order → ∃ next,
        s.attempt (.set name contents) = .ok (next, order) ∧
        next.sheet.graph = g.replaceDependees name references.toList := by
  intro g view
  have hrefines : g.Refines _ := refines_run edits
  -- The view lists for each node what the edited graph lists, so the walks are the same.
  have hwalk : ∀ nodes : List CellName, (∀ n, n ∈ nodes ↔ n ∈ references) →
      view = (g.replaceDependees name nodes).walk name := by
    intro nodes hnodes
    obtain ⟨finite, h⟩ := exists_recalcOrder_eq (prospectiveDependents_eq hrefines hnodes)
      ((g.replaceDependees name nodes).finitelyReachable name)
    exact h
  refine ⟨fun nodes hnodes => ⟨hwalk nodes hnodes, fun listing hlisting => ?_⟩,
    fun listing hlisting => ?_, fun s contents hgraph hreferences => ⟨fun cycle hcycle => ?_,
      fun order horder => ?_⟩⟩
  · rw [hwalk nodes hnodes]
    exact exists_recalcOrder_eq (funext fun n => inOrder_of_perm (hlisting n)) _
  · exact exists_recalcOrder_eq hlisting.viewed_eq _
  · have hset : s.sheet.set name contents = .error (.circular cycle) := by
      rw [Sheet.set_eq_circular_iff, hgraph, hreferences]
      exact hcycle
    have hrefused : s.attempt (.set name contents) = .error (.edit (.circular cycle)) :=
      Session.edited_eq_error_iff.2 hset
    exact ⟨hrefused, Session.perform_of_error hrefused⟩
  · have hset : s.sheet.set name contents = .ok (s.sheet.commit name contents order, order) := by
      rw [Sheet.set_eq_ok_iff, hgraph, hreferences]
      exact ⟨horder, rfl⟩
    refine ⟨⟨_, s.files⟩, Session.edited_eq_ok_iff.2 ⟨hset, rfl⟩, ?_⟩
    show s.sheet.graph.replaceDependees name (Sheet.newReferences contents).toList = _
    rw [hgraph, hreferences]

end DependencyGraph

end LiveSheet
