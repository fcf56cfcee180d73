import LiveSheet.Proofs.Graph.Edges

namespace LiveSheet

/-!
# A graph at work is a set of edges

Four edits change a graph.  Each is made of links and unlinks of single edges, and what a graph says
after any edits is what the same edits make of a plain set of pairs.

* `GraphEdit` — the edits; `GraphEdit.perform` and `GraphEdit.performOn` are what they do to a graph
  and to a set of edges.
* `EdgeChange`, `GraphEdit.changes` — the links and unlinks that an edit is made of.
* `DependencyGraph.refines_run` — a graph describes the set of edges after all edits.
* `DependencyGraph.run_simulates` — what this says about the queries of the graph.
-/

variable {N : Type} [Ord N] [Std.TransOrd N]

/-- An edit of a graph. -/
inductive GraphEdit (N : Type) where
  /-- Adds an edge. -/
  | add (dependee dependent : N)
  /-- Removes an edge. -/
  | remove (dependee dependent : N)
  /-- Makes the given nodes the only ones that depend on a node. -/
  | replaceDependents (node : N) (nodes : List N)
  /-- Makes the given nodes the only ones that a node depends on. -/
  | replaceDependees (node : N) (nodes : List N)
deriving DecidableEq

/-- A link or unlink of a single edge. -/
inductive EdgeChange (N : Type) where
  | link (dependee dependent : N)
  | unlink (dependee dependent : N)
deriving DecidableEq

namespace EdgeChange

/-- The graph after a change. -/
def perform (g : DependencyGraph N) : EdgeChange N → DependencyGraph N
  | .link u v => g.link u v
  | .unlink u v => g.unlink u v

/-- The set of edges after a change. -/
def performOn [DecidableEq N] (edges : Finset (N × N)) : EdgeChange N → Finset (N × N)
  | .link u v => insert (u, v) edges
  | .unlink u v => edges.erase (u, v)

end EdgeChange

namespace GraphEdit

/-- The graph after an edit. -/
def perform (g : DependencyGraph N) : GraphEdit N → DependencyGraph N
  | .add u v => g.link u v
  | .remove u v => g.unlink u v
  | .replaceDependents node nodes => g.replaceDependents node nodes
  | .replaceDependees node nodes => g.replaceDependees node nodes

/-- The set of edges after an edit. -/
def performOn [DecidableEq N] (edges : Finset (N × N)) : GraphEdit N → Finset (N × N)
  | .add u v => insert (u, v) edges
  | .remove u v => edges.erase (u, v)
  | .replaceDependents node nodes =>
    edges.filter (·.1 ≠ node) ∪ (nodes.map (node, ·)).toFinset
  | .replaceDependees node nodes =>
    edges.filter (·.2 ≠ node) ∪ (nodes.map (·, node)).toFinset

/-- The changes that an edit is made of, in order. -/
def changes (g : DependencyGraph N) : GraphEdit N → List (EdgeChange N)
  | .add u v => [.link u v]
  | .remove u v => [.unlink u v]
  | .replaceDependents node nodes =>
    (g.dependents node).toList.map (.unlink node ·) ++ nodes.map (.link node ·)
  | .replaceDependees node nodes =>
    (g.dependees node).toList.map (.unlink · node) ++ nodes.map (.link · node)

/-- An edit does what its changes do. -/
theorem perform_eq_foldl_changes (g : DependencyGraph N) (edit : GraphEdit N) :
    edit.perform g = (edit.changes g).foldl EdgeChange.perform g := by
  cases edit with
  | add u v => rfl
  | remove u v => rfl
  | replaceDependents node nodes =>
    rw [changes, List.foldl_append, List.foldl_map, List.foldl_map]
    rfl
  | replaceDependees node nodes =>
    rw [changes, List.foldl_append, List.foldl_map, List.foldl_map]
    rfl

end GraphEdit

/-! ### Entries -/

/-- A node has an entry exactly when it has neighbours. -/
theorem Adjacency.Pruned.contains_iff {a : Adjacency N} (h : a.Pruned) (node : N) :
    a.contains node = true ↔ ∃ x, x ∈ a.neighbours node := by
  rw [Std.ExtTreeMap.contains_eq_isSome_getElem?, neighbours]
  cases hnode : a[node]? with
  | none => simp
  | some nodes =>
    refine iff_of_true rfl ?_
    -- an entry is never empty
    by_contra hnot
    exact h node nodes hnode (Std.ExtTreeSet.eq_empty_iff_forall_not_mem.2 (not_exists.1 hnot))

namespace DependencyGraph

section Queries

variable {g : DependencyGraph N} {edges : Finset (N × N)}

/-- A node has dependents when it has some in the set. -/
theorem Refines.hasDependents_iff (h : g.Refines edges) (u : N) :
    g.hasDependents u = true ↔ ∃ v, (u, v) ∈ edges := by
  rw [hasDependents, h.prunedDependee.contains_iff]
  exact exists_congr (h.dependents u)

/-- A node has dependees when it has some in the set. -/
theorem Refines.hasDependees_iff (h : g.Refines edges) (v : N) :
    g.hasDependees v = true ↔ ∃ u, (u, v) ∈ edges := by
  rw [hasDependees, h.prunedDependent.contains_iff]
  exact exists_congr fun u => h.dependees u v

/-- A graph is empty when the set is. -/
theorem Refines.isEmpty_iff (h : g.Refines edges) : g.isEmpty = true ↔ edges = ∅ := by
  rw [isEmpty, beq_iff_eq, h.size, Finset.card_eq_zero]

/-- Where an edge is present, the counter is not zero. -/
theorem Refines.size_pos (h : g.Refines edges) {u v : N} (huv : g.contains u v = true) :
    0 < g.size := by
  rw [h.size, Finset.card_pos]
  exact ⟨(u, v), (h.dependents u v).1 (contains_iff.1 huv)⟩

end Queries

variable [Std.LawfulEqOrd N] [DecidableEq N] {g : DependencyGraph N} {edges : Finset (N × N)}

/-! ### Runs -/

/-- A change of the graph is the same change of the set. -/
theorem Refines.change (h : g.Refines edges) (change : EdgeChange N) :
    (change.perform g).Refines (change.performOn edges) := by
  cases change with
  | link u v => exact h.link u v
  | unlink u v => exact h.unlink u v

/-- Changes one after the other are the same changes of the set. -/
theorem Refines.changes (h : g.Refines edges) (changes : List (EdgeChange N)) :
    (changes.foldl EdgeChange.perform g).Refines (changes.foldl EdgeChange.performOn edges) := by
  induction changes generalizing g edges with
  | nil => exact h
  | cons change rest ih => exact ih (h.change change)

/-- An edit of the graph is the same edit of the set. -/
theorem Refines.edit (h : g.Refines edges) (edit : GraphEdit N) :
    (edit.perform g).Refines (edit.performOn edges) := by
  cases edit with
  | add u v => exact h.link u v
  | remove u v => exact h.unlink u v
  | replaceDependents node nodes => exact h.replaceDependents node nodes
  | replaceDependees node nodes => exact h.replaceDependees node nodes

/-- **Edits one after the other are the same edits of the set.** -/
theorem Refines.edits (h : g.Refines edges) (edits : List (GraphEdit N)) :
    (edits.foldl GraphEdit.perform g).Refines (edits.foldl GraphEdit.performOn edges) := by
  induction edits generalizing g edges with
  | nil => exact h
  | cons edit rest ih => exact ih (h.edit edit)

/-- After any edits of the empty graph, it describes what the edits make of the empty set. -/
theorem refines_run (edits : List (GraphEdit N)) :
    (edits.foldl GraphEdit.perform (∅ : DependencyGraph N)).Refines
      (edits.foldl GraphEdit.performOn ∅) :=
  refines_empty.edits edits

/-- **A graph behaves as a plain set of edges.**  After any edits of the empty graph, with `edges`
    what the same edits make of the empty set:
    * An edge is present when it is in the set; the dependents and the dependees of a node are its
      neighbours in the set, listed once each, and it has any when there are any in the set.
    * The counter is the number of edges.
    * The two directions describe the same edges, and neither keeps an empty entry.
    * An edit does what its changes do one after the other, and whenever an unlink among them
      removes an edge, the counter is not zero before it is lowered. -/
theorem run_simulates (edits : List (GraphEdit N)) :
    let g := edits.foldl GraphEdit.perform (∅ : DependencyGraph N)
    let edges : Finset (N × N) := edits.foldl GraphEdit.performOn ∅
    (∀ u v, g.contains u v = true ↔ (u, v) ∈ edges) ∧
    (∀ u, (g.dependents u).toList.Nodup ∧ ∀ v, v ∈ (g.dependents u).toList ↔ (u, v) ∈ edges) ∧
    (∀ v, (g.dependees v).toList.Nodup ∧ ∀ u, u ∈ (g.dependees v).toList ↔ (u, v) ∈ edges) ∧
    (∀ u, g.hasDependents u = true ↔ ∃ v, (u, v) ∈ edges) ∧
    (∀ v, g.hasDependees v = true ↔ ∃ u, (u, v) ∈ edges) ∧
    g.size = edges.card ∧ (g.isEmpty = true ↔ edges = ∅) ∧
    (∀ u v, v ∈ g.byDependee.neighbours u ↔ u ∈ g.byDependent.neighbours v) ∧
    g.byDependee.Pruned ∧ g.byDependent.Pruned ∧
    ∀ edit : GraphEdit N, edit.perform g = (edit.changes g).foldl EdgeChange.perform g ∧
      ∀ done u v rest, edit.changes g = done ++ .unlink u v :: rest →
        let h := done.foldl EdgeChange.perform g
        h.contains u v = true → 0 < h.size := by
  intro g edges
  have hrefines : g.Refines edges := refines_run edits
  refine ⟨fun u v => contains_iff.trans (hrefines.dependents u v),
    fun u => ⟨nodup_toList _, fun v => ?_⟩,
    fun v => ⟨nodup_toList _, fun u => ?_⟩, hrefines.hasDependents_iff, hrefines.hasDependees_iff,
    hrefines.size, hrefines.isEmpty_iff, fun u v => ?_, hrefines.prunedDependee,
    hrefines.prunedDependent, fun edit => ⟨edit.perform_eq_foldl_changes g, ?_⟩⟩
  · exact Std.ExtTreeSet.mem_toList.trans (hrefines.dependents u v)
  · exact Std.ExtTreeSet.mem_toList.trans (hrefines.dependees u v)
  · exact (hrefines.dependents u v).trans (hrefines.dependees u v).symm
  · -- the graph between two changes still describes a set of edges
    intro done u v rest _ h huv
    exact (hrefines.changes done).size_pos huv

/-- Edits with an edge from a node to itself, a repeated node, an edge that is replaced from its
    other end and one that is absent. -/
def overlappingEdits : List (GraphEdit String) :=
  [.add "a" "a", .replaceDependents "a" ["b", "a", "b"], .replaceDependees "b" ["c", "a"],
    .remove "b" "a"]

/-- After these edits the edges are `a → a`, `a → b` and `c → b`: the repeated node was counted
    once, and removing the absent edge counted nothing. -/
theorem run_simulates_overlapping :
    let g := overlappingEdits.foldl GraphEdit.perform (∅ : DependencyGraph String)
    g.size = 3 ∧ g.contains "c" "b" = true ∧ g.hasDependents "b" = false := by
  intro g
  obtain ⟨hcontains, -, -, hdependents, -, hsize, -⟩ := run_simulates overlappingEdits
  have hedges : overlappingEdits.foldl GraphEdit.performOn ∅
      = ({("a", "a"), ("a", "b"), ("c", "b")} : Finset (String × String)) := by decide
  rw [hedges] at hcontains hdependents hsize
  refine ⟨hsize, (hcontains "c" "b").2 (by decide), ?_⟩
  rw [← Bool.not_eq_true, hdependents]
  simp

end DependencyGraph

end LiveSheet
