import LiveSheet.Graph.Dependency
import Mathlib.Data.Finset.Card
import Mathlib.Data.Finset.SDiff
import Mathlib.Data.Finset.Image

namespace LiveSheet

/-!
# A dependency graph as a set of edges

Both directions of a graph and its counter describe one set of pairs of a dependee and a dependent.

* `Adjacency.Pruned` — no node has an entry without neighbours.
* `DependencyGraph.Refines` — a graph describes a set of edges.
* `Refines.link`, `Refines.unlink`, `Refines.replaceDependents`, `Refines.replaceDependees` — every
  edit of the graph is the same edit of the set.
* `Refines.unique` — two graphs with the same edges are equal, whatever was done to build them.
-/

variable {N : Type} [Ord N] [Std.TransOrd N]

/-! ### One direction -/

namespace Adjacency

/-- No node has an entry without neighbours. -/
def Pruned (a : Adjacency N) : Prop := ∀ (node : N) (nodes : Std.ExtTreeSet N),
  a[node]? = some nodes → nodes ≠ ∅

/-- Storing a set for a node makes it the node's neighbours and leaves other nodes as they are. -/
theorem neighbours_insert (a : Adjacency N) (node x : N) (nodes : Std.ExtTreeSet N) :
    Adjacency.neighbours (a.insert node nodes) x
      = if compare node x = .eq then nodes else a.neighbours x := by
  rw [neighbours, Std.ExtTreeMap.getElem?_insert]
  split
  · rfl
  · rfl

/-- Removing the entry of a node takes all its neighbours away. -/
theorem neighbours_erase (a : Adjacency N) (node x : N) :
    Adjacency.neighbours (a.erase node) x
      = if compare node x = .eq then ∅ else a.neighbours x := by
  rw [neighbours, Std.ExtTreeMap.getElem?_erase]
  split
  · rfl
  · rfl

/-- Whether the entry of a node is removed with its last neighbour makes no difference here. -/
theorem neighbours_unlink (a : Adjacency N) (node neighbour x : N) :
    (a.unlink node neighbour).neighbours x
      = if compare node x = .eq then (a.neighbours node).erase neighbour else a.neighbours x := by
  simp only [unlink]
  split
  · next hempty =>
    rw [neighbours_erase, Std.ExtTreeSet.isEmpty_iff.1 hempty]
  · rw [neighbours_insert]

/-- Linking adds one neighbour to one node. -/
theorem mem_neighbours_link [Std.LawfulEqOrd N] (a : Adjacency N) (node neighbour x y : N) :
    y ∈ (a.link node neighbour).neighbours x ↔
      (x = node ∧ y = neighbour) ∨ y ∈ a.neighbours x := by
  rw [link, neighbours_insert]
  by_cases hx : x = node
  · subst hx
    rw [if_pos Std.ReflOrd.compare_self, Std.ExtTreeSet.mem_insert,
      Std.LawfulEqOrd.compare_eq_iff_eq, eq_comm]
    simp
  · have hne : compare node x ≠ .eq := fun h => hx (Std.LawfulEqOrd.eq_of_compare h).symm
    rw [if_neg hne]
    simp [hx]

/-- Unlinking takes one neighbour from one node. -/
theorem mem_neighbours_unlink [Std.LawfulEqOrd N] (a : Adjacency N) (node neighbour x y : N) :
    y ∈ (a.unlink node neighbour).neighbours x ↔
      ¬ (x = node ∧ y = neighbour) ∧ y ∈ a.neighbours x := by
  rw [neighbours_unlink]
  by_cases hx : x = node
  · subst hx
    rw [if_pos Std.ReflOrd.compare_self, Std.ExtTreeSet.mem_erase, ne_eq,
      Std.LawfulEqOrd.compare_eq_iff_eq, eq_comm]
    simp
  · have hne : compare node x ≠ .eq := fun h => hx (Std.LawfulEqOrd.eq_of_compare h).symm
    rw [if_neg hne]
    simp [hx]

/-- Linking leaves no empty entry, for it adds to the one it touches. -/
theorem Pruned.link {a : Adjacency N} (h : a.Pruned) (node neighbour : N) :
    (a.link node neighbour).Pruned := by
  intro x nodes hx
  rw [Adjacency.link, Std.ExtTreeMap.getElem?_insert] at hx
  split at hx
  · cases hx
    exact Std.ExtTreeSet.insert_ne_empty
  · exact h x nodes hx

/-- **Unlinking leaves no empty entry**, for it removes an entry with its last neighbour. -/
theorem Pruned.unlink {a : Adjacency N} (h : a.Pruned) (node neighbour : N) :
    (a.unlink node neighbour).Pruned := by
  intro x nodes hx
  simp only [Adjacency.unlink] at hx
  split at hx
  · -- the last neighbour was removed, and the entry with it
    rw [Std.ExtTreeMap.getElem?_erase] at hx
    split at hx
    · cases hx
    · exact h x nodes hx
  · next hrest =>
    rw [Std.ExtTreeMap.getElem?_insert] at hx
    split at hx
    · cases hx
      exact fun hempty => hrest (Std.ExtTreeSet.isEmpty_iff.2 hempty)
    · exact h x nodes hx

/-- Without empty entries, the neighbours say everything. -/
theorem Pruned.ext [Std.LawfulEqOrd N] {a b : Adjacency N} (ha : a.Pruned) (hb : b.Pruned)
    (h : ∀ x y, y ∈ a.neighbours x ↔ y ∈ b.neighbours x) : a = b := by
  have hsets : ∀ x, a.neighbours x = b.neighbours x := fun x => Std.ExtTreeSet.ext_mem (h x)
  refine Std.ExtTreeMap.ext_getElem? fun x => ?_
  have hx := hsets x
  unfold neighbours at hx
  cases hax : a[x]? with
  | none =>
    cases hbx : b[x]? with
    | none => rfl
    | some nodes =>
      -- an entry on one side only would have to be empty
      rw [hax, hbx] at hx
      exact absurd hx.symm (hb x nodes hbx)
  | some nodes =>
    cases hbx : b[x]? with
    | none =>
      rw [hax, hbx] at hx
      exact absurd hx (ha x nodes hax)
    | some others =>
      rw [hax, hbx] at hx
      exact congrArg some hx

end Adjacency

/-! ### Both directions and the counter -/

namespace DependencyGraph

/-- An edge is present when its end is among the dependents. -/
theorem contains_iff {g : DependencyGraph N} {u v : N} :
    g.contains u v = true ↔ v ∈ g.dependents u :=
  Std.ExtTreeSet.contains_iff_mem

/-- The neighbours of a node are listed once each. -/
theorem nodup_toList [Std.LawfulEqOrd N] (nodes : Std.ExtTreeSet N) : nodes.toList.Nodup := by
  refine Std.ExtTreeSet.distinct_toList.imp fun hne heq => hne ?_
  rw [heq]
  exact Std.ReflCmp.compare_self

/-- A graph describes a set of edges: by dependee, by dependent, without empty entries, and with
    their number. -/
structure Refines (g : DependencyGraph N) (edges : Finset (N × N)) : Prop where
  dependents : ∀ u v, v ∈ g.dependents u ↔ (u, v) ∈ edges
  dependees : ∀ u v, u ∈ g.dependees v ↔ (u, v) ∈ edges
  prunedDependee : g.byDependee.Pruned
  prunedDependent : g.byDependent.Pruned
  size : g.size = edges.card

/-- The empty graph describes no edges. -/
theorem refines_empty : (empty : DependencyGraph N).Refines ∅ where
  dependents u v := by
    rw [dependents, empty, Adjacency.neighbours, Std.ExtTreeMap.getElem?_empty, Option.getD_none]
    simp
  dependees u v := by
    rw [dependees, empty, Adjacency.neighbours, Std.ExtTreeMap.getElem?_empty, Option.getD_none]
    simp
  prunedDependee node nodes h := by
    rw [empty, Std.ExtTreeMap.getElem?_empty] at h
    cases h
  prunedDependent node nodes h := by
    rw [empty, Std.ExtTreeMap.getElem?_empty] at h
    cases h
  size := rfl

variable [Std.LawfulEqOrd N] [DecidableEq N] {g : DependencyGraph N} {edges : Finset (N × N)}

/-- Adding an edge adds it to the set. -/
theorem Refines.link (h : g.Refines edges) (u v : N) :
    (g.link u v).Refines (insert (u, v) edges) := by
  unfold DependencyGraph.link
  split
  · next hpresent =>
      -- The edge is there, and neither the graph nor the set changes.
    have hmem : (u, v) ∈ edges := (h.dependents u v).1 (contains_iff.1 hpresent)
    rw [Finset.insert_eq_of_mem hmem]
    exact h
  · next habsent =>
    have hnew : (u, v) ∉ edges := fun hmem => habsent (contains_iff.2 ((h.dependents u v).2 hmem))
    exact
      { dependents := by
          intro x y
          rw [DependencyGraph.dependents, Adjacency.mem_neighbours_link, Finset.mem_insert,
            Prod.mk.injEq, ← h.dependents x y]
          rfl
        dependees := by
          intro x y
          rw [DependencyGraph.dependees, Adjacency.mem_neighbours_link, Finset.mem_insert,
            Prod.mk.injEq, ← h.dependees x y, and_comm]
          rfl
        prunedDependee := h.prunedDependee.link u v
        prunedDependent := h.prunedDependent.link v u
        size := by
          rw [Finset.card_insert_of_notMem hnew, ← h.size] }

/-- Removing an edge removes it from the set. -/
theorem Refines.unlink (h : g.Refines edges) (u v : N) :
    (g.unlink u v).Refines (edges.erase (u, v)) := by
  unfold DependencyGraph.unlink
  split
  · next hpresent =>
    have hmem : (u, v) ∈ edges := (h.dependents u v).1 (contains_iff.1 hpresent)
    exact
      { dependents := by
          intro x y
          rw [DependencyGraph.dependents, Adjacency.mem_neighbours_unlink, Finset.mem_erase, ne_eq,
            Prod.mk.injEq, ← h.dependents x y]
          rfl
        dependees := by
          intro x y
          rw [DependencyGraph.dependees, Adjacency.mem_neighbours_unlink, Finset.mem_erase, ne_eq,
            Prod.mk.injEq, ← h.dependees x y, and_comm (a := x = u)]
          rfl
        prunedDependee := h.prunedDependee.unlink u v
        prunedDependent := h.prunedDependent.unlink v u
        size := by
          rw [Finset.card_erase_of_mem hmem, ← h.size] }
  · next habsent =>
      -- There is nothing to remove on either side.
    have hnot : (u, v) ∉ edges := fun hmem => habsent (contains_iff.2 ((h.dependents u v).2 hmem))
    rw [Finset.erase_eq_of_notMem hnot]
    exact h

/-- Adding edges one after the other adds them all. -/
theorem Refines.linkAll (h : g.Refines edges) (pairs : List (N × N)) :
    (pairs.foldl (fun h e => h.link e.1 e.2) g).Refines (edges ∪ pairs.toFinset) := by
  induction pairs generalizing g edges with
  | nil => simpa using h
  | cons e rest ih =>
    have hrest := ih (h.link e.1 e.2)
    have hset : insert e edges ∪ rest.toFinset = edges ∪ (e :: rest).toFinset := by
      rw [List.toFinset_cons, Finset.insert_union, Finset.union_insert]
    rw [List.foldl_cons, ← hset]
    exact hrest

/-- Removing edges one after the other removes them all. -/
theorem Refines.unlinkAll (h : g.Refines edges) (pairs : List (N × N)) :
    (pairs.foldl (fun h e => h.unlink e.1 e.2) g).Refines (edges \ pairs.toFinset) := by
  induction pairs generalizing g edges with
  | nil => simpa using h
  | cons e rest ih =>
    have hrest := ih (h.unlink e.1 e.2)
    have hset : edges.erase e \ rest.toFinset = edges \ (e :: rest).toFinset := by
      rw [List.toFinset_cons, Finset.erase_sdiff_comm, Finset.sdiff_insert]
    rw [List.foldl_cons, ← hset]
    exact hrest

/-- Removing some edges and then adding others. -/
theorem Refines.exchange (h : g.Refines edges) (old new : List (N × N)) :
    (new.foldl (fun h e => h.link e.1 e.2) (old.foldl (fun h e => h.unlink e.1 e.2) g)).Refines
      (edges \ old.toFinset ∪ new.toFinset) :=
  (h.unlinkAll old).linkAll new

/-- **Replacing the dependents of a node** takes away all edges from the node and adds one to each
    of the given nodes. -/
theorem Refines.replaceDependents (h : g.Refines edges) (node : N) (nodes : List N) :
    (g.replaceDependents node nodes).Refines
      (edges.filter (·.1 ≠ node) ∪ (nodes.map (node, ·)).toFinset) := by
  have hexchanged := h.exchange ((g.dependents node).toList.map (node, ·)) (nodes.map (node, ·))
  -- The edges that are taken away are the ones that the graph lists for the node.
  have hset : edges \ ((g.dependents node).toList.map (node, ·)).toFinset
      = edges.filter (·.1 ≠ node) := by
    ext ⟨u, v⟩
    simp only [Finset.mem_sdiff, Finset.mem_filter, List.mem_toFinset, List.mem_map,
      Std.ExtTreeSet.mem_toList, Prod.mk.injEq]
    refine and_congr_right fun hedge => not_congr ?_
    constructor
    · rintro ⟨_, -, hu, -⟩
      exact hu.symm
    · rintro rfl
      exact ⟨v, (h.dependents u v).2 hedge, rfl, rfl⟩
  rw [hset, List.foldl_map, List.foldl_map] at hexchanged
  exact hexchanged

/-- **Replacing the dependees of a node** takes away all edges to the node and adds one from each of
    the given nodes. -/
theorem Refines.replaceDependees (h : g.Refines edges) (node : N) (nodes : List N) :
    (g.replaceDependees node nodes).Refines
      (edges.filter (·.2 ≠ node) ∪ (nodes.map (·, node)).toFinset) := by
  have hexchanged := h.exchange ((g.dependees node).toList.map (·, node)) (nodes.map (·, node))
  have hset : edges \ ((g.dependees node).toList.map (·, node)).toFinset
      = edges.filter (·.2 ≠ node) := by
    ext ⟨u, v⟩
    simp only [Finset.mem_sdiff, Finset.mem_filter, List.mem_toFinset, List.mem_map,
      Std.ExtTreeSet.mem_toList, Prod.mk.injEq]
    refine and_congr_right fun hedge => not_congr ?_
    constructor
    · rintro ⟨_, -, -, hv⟩
      exact hv.symm
    · rintro rfl
      exact ⟨u, (h.dependees u v).2 hedge, rfl, rfl⟩
  rw [hset, List.foldl_map, List.foldl_map] at hexchanged
  exact hexchanged

omit [DecidableEq N] in
/-- **A graph is determined by its edges.** -/
theorem Refines.unique {g' : DependencyGraph N} (h : g.Refines edges) (h' : g'.Refines edges) :
    g = g' := by
  obtain ⟨byDependee, byDependent, size⟩ := g
  obtain ⟨byDependee', byDependent', size'⟩ := g'
  have hforward : byDependee = byDependee' :=
    h.prunedDependee.ext h'.prunedDependee fun u v =>
      (h.dependents u v).trans (h'.dependents u v).symm
  have hbackward : byDependent = byDependent' :=
    h.prunedDependent.ext h'.prunedDependent fun v u =>
      (h.dependees u v).trans (h'.dependees u v).symm
  have hsize : size = size' := h.size.trans h'.size.symm
  rw [hforward, hbackward, hsize]

end DependencyGraph

end LiveSheet
