import LiveSheet.Proofs.Graph.Walk
import Mathlib.Data.Set.Insert

namespace LiveSheet

open Relation

/-!
# Cycles and reverse post-orders

The walk keeps a stack of its own, but it finishes the nodes as a recursion does that looks at the
dependents of a node one after the other and finishes the node after the last of them.  So the order
that it gives is this post-order from its end.

* `Explores` — the recursion, with the nodes in the order in which it finishes them.
* `Completes` — the same for what is left on the stack of a walk.
* `recalcOrder_cycle` — when a walk gives a cycle, and what the cycle is.
* `recalcOrder_postOrder` — when it gives an order, and what the order is.
-/

variable {N : Type}

/-! ### The walk as a recursion -/

/-- Looks at nodes one after the other.  One that was seen is passed over; of any other one, first
    all dependents are looked at, and then it is finished.  `post` are the nodes finished, in
    order. -/
inductive Explores (dependents : N → List N) : Set N → List N → Set N → List N → Prop where
  | nil {seen : Set N} : Explores dependents seen [] seen []
  | seen {seen after : Set N} {n : N} {rest post : List N} (hseen : n ∈ seen)
      (hrest : Explores dependents seen rest after post) :
      Explores dependents seen (n :: rest) after post
  | new {seen between after : Set N} {n : N} {rest inner later : List N} (hnew : n ∉ seen)
      (hinner : Explores dependents (insert n seen) (dependents n) between inner)
      (hrest : Explores dependents between rest after later) :
      Explores dependents seen (n :: rest) after (inner ++ n :: later)

/-- Finishes a stack: of each node on it, first what is pending is looked at.  `finished` are the
    nodes finished before and `order` those finished in the end, the last one first. -/
inductive Completes (dependents : N → List N) :
    Set N → List (Frame N) → List N → List N → Prop where
  | nil {seen : Set N} {finished : List N} : Completes dependents seen [] finished finished
  | cons {seen between : Set N} {f : Frame N} {below : List (Frame N)}
      {finished post order : List N} (hpending : Explores dependents seen f.pending between post)
      (hbelow : Completes dependents between below (f.node :: (post.reverse ++ finished)) order) :
      Completes dependents seen (f :: below) finished order

section Completes

variable {dependents : N → List N} {seen : Set N} {node next : N} {rest finished order : List N}
  {below : List (Frame N)}

/-- A node that was seen is passed over. -/
theorem Completes.skip (h : Completes dependents seen (⟨node, rest⟩ :: below) finished order)
    (hseen : next ∈ seen) :
    Completes dependents seen (⟨node, next :: rest⟩ :: below) finished order := by
  cases h with
  | cons hpending hbelow => exact .cons (.seen hseen hpending) hbelow

/-- A node that is entered is finished before the next one that is pending below it is looked at. -/
theorem Completes.enter
    (h : Completes dependents (insert next seen)
      (⟨next, dependents next⟩ :: ⟨node, rest⟩ :: below) finished order)
    (hnew : next ∉ seen) :
    Completes dependents seen (⟨node, next :: rest⟩ :: below) finished order := by
  cases h with
  | @cons _ between _ _ _ inner _ hinner h =>
    cases h with
    | @cons _ after _ _ _ later _ hrest hbelow =>
      refine .cons (.new hnew hinner hrest) ?_
      rw [List.reverse_append, List.reverse_cons, List.append_assoc, List.append_assoc]
      exact hbelow

end Completes

namespace Search

variable [Ord N] [Std.TransOrd N]

/-- The nodes that are marked as entered. -/
def marked (visited : Std.ExtTreeSet N) : Set N := { n | n ∈ visited }

/-- No node is marked at first. -/
theorem marked_empty : marked (∅ : Std.ExtTreeSet N) = ∅ :=
  Set.eq_empty_of_forall_notMem fun _ => Std.ExtTreeSet.not_mem_empty

variable [Std.LawfulEqOrd N]

/-- Marking a node adds it to those that are marked. -/
theorem marked_insert (visited : Std.ExtTreeSet N) (n : N) :
    marked (visited.insert n) = insert n (marked visited) := by
  ext m
  show m ∈ visited.insert n ↔ m = n ∨ m ∈ visited
  rw [Std.ExtTreeSet.mem_insert, Std.LawfulEqOrd.compare_eq_iff_eq, eq_comm]

variable {dependents : N → List N} {start : N} {s : Search N}

/-- **The stack does the work of the recursion.**  A walk that gives an order has finished what was
    on its stack. -/
theorem completes_of_run [DecidableEq N] {finite : FinitelyReachable dependents start}
    {reachable : s.PendingReachable dependents start} {order : List N}
    (h : (run dependents start finite s reachable).result = .ok order) :
    Completes dependents (marked s.visited) s.stack s.finished order := by
  -- One case for each turn of the loop, with the rest of the walk as hypothesis.
  fun_induction run dependents start finite s reachable with
  | case1 s _ hs =>
    cases h
    rw [hs]
    exact .nil
  | case2 s _ node below hs ih =>
    rw [hs]
    exact .cons .nil (ih h)
  -- The start is found again: there is no order.
  | case3 s _ node rest below hs => cases h
  | case4 s _ node next rest below hs _ _ _ hvisited ih =>
    rw [hs]
    exact (ih h).skip hvisited
  | case5 s _ node next rest below hs _ _ _ hnew ih =>
    have hrest := ih h
    rw [enter, marked_insert] at hrest
    rw [hs]
    exact hrest.enter hnew

end Search

/-! ### The recursion behind an order -/

section RecalcOrder

variable [Ord N] [Std.TransOrd N] [Std.LawfulEqOrd N] [DecidableEq N] {dependents : N → List N}
  {start : N} {finite : FinitelyReachable dependents start}

/-- **The order is a reverse post-order** of the recursion from the start. -/
theorem explores_of_recalcOrder {order : List N}
    (h : (recalcOrder dependents start finite).result = .ok order) :
    ∃ seen post, Explores dependents ∅ [start] seen post ∧ order = post.reverse := by
  have hcompletes : Completes dependents (Search.marked ((∅ : Std.ExtTreeSet N).insert start))
      [⟨start, dependents start⟩] [] order := Search.completes_of_run h
  rw [Search.marked_insert, Search.marked_empty] at hcompletes
  cases hcompletes with
  | @cons _ seen _ _ _ post _ hpost hnil =>
    cases hnil
    refine ⟨seen, post ++ [start], .new (Set.notMem_empty start) hpost .nil, ?_⟩
    rw [List.reverse_append, List.append_nil]
    rfl

end RecalcOrder

/-! ### A graph with cycles -/

/-- A diamond above a node that depends on itself and lies on another cycle. -/
def tangled : Nat → List Nat
  | 0 => [1, 2, 2]
  | 1 => [3]
  | 2 => [3, 1]
  | 3 => [3, 5, 4]
  | 4 => [3]
  | _ => []

/-- Five nodes are listed as dependents, so no start leads to infinitely many. -/
theorem finitelyReachable_tangled (start : Nat) : FinitelyReachable tangled start := by
  refine finitelyReachable_of_mem [1, 2, 3, 4, 5] (fun m n h => ?_) start
  unfold tangled at h
  split at h <;> grind

/-! ### What a walk gives -/

section RecalcOrder

variable [Ord N] [Std.TransOrd N] [Std.LawfulEqOrd N] [DecidableEq N]

/-- **When a walk gives a cycle, and what it is.**  A walk gives a cycle exactly when the start
    leads back to itself.  The cycle then begins and ends with the start, goes from each node to one
    of its dependents, and meets no node twice before it closes. -/
theorem recalcOrder_cycle (dependents : N → List N) (start : N)
    (finite : FinitelyReachable dependents start) :
    ((∃ cycle, (recalcOrder dependents start finite).result = .error cycle) ↔
      TransGen (Edge dependents) start start) ∧
    ∀ cycle, (recalcOrder dependents start finite).result = .error cycle →
      cycle.head? = some start ∧ cycle.getLast? = some start ∧ 2 ≤ cycle.length ∧
      (cycle.IsChain fun m n => n ∈ dependents m) ∧ cycle.dropLast.Nodup := by
  refine ⟨recalcOrder_error_iff, fun cycle hcycle => ?_⟩
  have h : IsCycle dependents start cycle := recalcOrder_ended.isCycle hcycle
  exact ⟨h.head?_eq, h.getLast?_eq, h.two_le_length, h.chain, h.nodup_dropLast⟩

/-- From `4`, which lies on the lower cycle, the walk comes back to where it began as `4, 3, 4`,
    past the node `3` that depends on itself. -/
theorem recalcOrder_cycle_tangled :
    (recalcOrder tangled 4 (finitelyReachable_tangled 4)).result = .error [4, 3, 4] ∧
      TransGen (Edge tangled) 4 4 ∧ ([4, 3, 4].IsChain fun m n => n ∈ tangled m) ∧
      [4, 3, 4].dropLast.Nodup := by
  have hresult : (recalcOrder tangled 4 (finitelyReachable_tangled 4)).result
      = .error [4, 3, 4] := by cbv
  obtain ⟨hiff, hcycle⟩ := recalcOrder_cycle tangled 4 (finitelyReachable_tangled 4)
  obtain ⟨-, -, -, hchain, hnodup⟩ := hcycle _ hresult
  exact ⟨hresult, hiff.1 ⟨_, hresult⟩, hchain, hnodup⟩

/-- **When a walk gives an order, and what it is.**  A walk gives an order exactly when the start
    does not lead back to itself.  The order is then a reverse post-order of the recursion from the
    start:
    * It begins with the start and has every node that can be reached once, and no other node.
    * A node stands before each of its dependents that does not lead back to it.
    * So it stands before all its dependents, if none of the nodes lies on a cycle. -/
theorem recalcOrder_postOrder (dependents : N → List N) (start : N)
    (finite : FinitelyReachable dependents start) :
    ((∃ order, (recalcOrder dependents start finite).result = .ok order) ↔
      ¬ TransGen (Edge dependents) start start) ∧
    ∀ order, (recalcOrder dependents start finite).result = .ok order →
      (∃ seen post, Explores dependents ∅ [start] seen post ∧ order = post.reverse) ∧
      order.head? = some start ∧ order.Nodup ∧ (∀ n, n ∈ order ↔ Reaches dependents start n) ∧
      (∀ u v, Reaches dependents start u → v ∈ dependents u → ¬ Reaches dependents v u →
        order.idxOf u < order.idxOf v) ∧
      ((∀ n, Reaches dependents start n → ¬ TransGen (Edge dependents) n n) →
        ∀ u v, Reaches dependents start u → v ∈ dependents u →
          order.idxOf u < order.idxOf v) := by
  refine ⟨recalcOrder_ok_iff, fun order horder => ?_⟩
  have h : IsOrder dependents start order := recalcOrder_ended.isOrder horder
  refine ⟨explores_of_recalcOrder horder, h.head, h.nodup, h.mem_iff,
    fun u v hu huv hback => h.idxOf_lt hu huv hback, fun hacyclic u v hu huv => ?_⟩
  -- a dependent that leads back would close a cycle
  exact h.idxOf_lt hu huv fun hback => hacyclic u hu (TransGen.head' huv (reaches_iff.1 hback))

/-- From `0`, the top of the diamond, the walk does not come back.  It passes over the cycles of `3`
    and `4` below, and only the nodes on these need not stand before their dependents. -/
theorem recalcOrder_postOrder_tangled :
    let order := [0, 2, 1, 3, 4, 5]
    (recalcOrder tangled 0 (finitelyReachable_tangled 0)).result = .ok order ∧
      (∃ seen post, Explores tangled ∅ [0] seen post ∧ order = post.reverse) ∧
      (∀ n, n ∈ order ↔ Reaches tangled 0 n) ∧
      ∀ u v, Reaches tangled 0 u → v ∈ tangled u → ¬ Reaches tangled v u →
        order.idxOf u < order.idxOf v := by
  have hresult : (recalcOrder tangled 0 (finitelyReachable_tangled 0)).result
      = .ok [0, 2, 1, 3, 4, 5] := by cbv
  obtain ⟨-, horder⟩ := recalcOrder_postOrder tangled 0 (finitelyReachable_tangled 0)
  obtain ⟨hexplores, -, -, hmem, hbefore, -⟩ := horder _ hresult
  exact ⟨hresult, hexplores, hmem, hbefore⟩

end RecalcOrder

end LiveSheet
