import LiveSheet.Proofs.Graph.Paths
import Mathlib.Data.List.Chain
import Mathlib.Data.List.Nodup

namespace LiveSheet

open Relation

/-!
# What a depth-first walk finds

The stack of the walk is at all times a simple path from the start, and what is finished is closed
under dependents except for nodes still on the stack.  The nodes entered are kept in one list, the
*trail*: the path from the start, then the nodes finished, the last one first.  Finishing a node
leaves the trail as it is, so the trail of a walk that ends is the order it gives.

* `Search.Sound` — the invariant; `Search.Sound.finish`, `skip` and `enter` carry it over one step.
* `Search.run_ended` — so it holds of the state in which a walk ends.
* `IsOrder` — an order has the start first and every node that can be reached once, and a node
  stands before its dependents unless the two lie on a cycle.
* `IsEvaluationOrder` — without cycles a node stands before all its dependents.
* `IsCycle` — a cycle leads from the start along dependents back to it.
* `recalcOrder_error_iff` — the walk finds a cycle exactly when the start lies on one.
-/

variable {N : Type}

/-- In a chain every node leads to the last one. -/
theorem reaches_getLast_of_isChain {dependents : N → List N} {path : List N} {m n : N}
    (h : path.IsChain (Edge dependents)) (hm : m ∈ path) (hn : path.getLast? = some n) :
    Reaches dependents m n := by
  refine h.backwards_induction (Reaches dependents · n) path (fun x y hxy hy => ?_)
    (fun hne => ?_) m hm
  · rw [reaches_iff] at hy ⊢
    exact hy.head hxy
  · rw [List.getLast?_eq_some_getLast hne, Option.some.injEq] at hn
    rw [hn]
    exact .start

namespace Search

variable [Ord N]

/-- The nodes entered: the path from the start to the place of the walk, then the nodes finished,
    the last one first. -/
def trail (s : Search N) : List N := s.path ++ s.finished

/-- When nothing is left on the stack, the trail is what is finished. -/
theorem trail_of_stack_nil {s : Search N} (hs : s.stack = []) : s.trail = s.finished := by
  rw [trail, path, hs]
  rfl

/-! ### The path and the trail after a step -/

section Path

variable {s : Search N} {node next : N} {rest pending : List N} {below : List (Frame N)}

/-- The path leads along the stack, from its bottom to the node on top. -/
theorem path_of_stack (hs : s.stack = ⟨node, pending⟩ :: below) :
    s.path = (below.map Frame.node).reverse ++ [node] := by
  rw [path, hs, List.map_cons, List.reverse_cons]

/-- The path ends at the node on top. -/
theorem getLast?_path (hs : s.stack = ⟨node, pending⟩ :: below) :
    s.path.getLast? = some node := by
  rw [path_of_stack hs, List.getLast?_concat]

/-- The node on top lies on the path. -/
theorem mem_path (hs : s.stack = ⟨node, pending⟩ :: below) : node ∈ s.path := by
  rw [path_of_stack hs]
  exact List.mem_concat_self

/-- Finishing a node moves it from the end of the path to the finished ones next to it. -/
theorem trail_finish (hs : s.stack = ⟨node, []⟩ :: below) :
    (s.finish node below).trail = s.trail := by
  rw [trail, trail, path_of_stack hs, List.append_assoc]
  rfl

/-- Passing over a node does not move the place of the walk. -/
theorem path_skip (hs : s.stack = ⟨node, next :: rest⟩ :: below) :
    (s.withStack (⟨node, rest⟩ :: below)).path = s.path := by
  rw [path_of_stack hs, path_of_stack rfl]

/-- Passing over a node enters none. -/
theorem trail_skip (hs : s.stack = ⟨node, next :: rest⟩ :: below) :
    (s.withStack (⟨node, rest⟩ :: below)).trail = s.trail := by
  rw [trail, path_skip hs]
  rfl

end Path

variable [Std.TransOrd N] {dependents : N → List N} {start : N} {s : Search N} {node next : N}
  {rest : List N} {below : List (Frame N)}

/-- Entering a node makes the path longer. -/
theorem path_enter (hs : s.stack = ⟨node, next :: rest⟩ :: below) :
    ((s.withStack (⟨node, rest⟩ :: below)).enter dependents next).path = s.path ++ [next] := by
  rw [path_of_stack hs, path_of_stack rfl]
  show ((⟨node, rest⟩ :: below).map Frame.node).reverse ++ [next] = _
  rw [List.map_cons, List.reverse_cons]

/-- Entering a node puts it between the path and the finished nodes. -/
theorem trail_enter (hs : s.stack = ⟨node, next :: rest⟩ :: below) :
    ((s.withStack (⟨node, rest⟩ :: below)).enter dependents next).trail
      = s.path ++ next :: s.finished := by
  rw [trail, path_enter hs, List.append_assoc]
  rfl

/-! ### The invariant -/

/-- The state of a walk from `start` that has not come back to it. -/
structure Sound (dependents : N → List N) (start : N) (s : Search N) : Prop where
  /-- The walk began at the start. -/
  head : s.trail.head? = some start
  /-- No node is entered twice. -/
  nodup : s.trail.Nodup
  /-- Only nodes that can be reached are entered. -/
  reached : ∀ n ∈ s.trail, Reaches dependents start n
  /-- The nodes marked are those entered. -/
  visited : ∀ n, n ∈ s.visited ↔ n ∈ s.trail
  /-- The stack is a path. -/
  chain : s.path.IsChain (Edge dependents)
  /-- What is still to be looked at are dependents. -/
  pending : ∀ f ∈ s.stack, ∀ n ∈ f.pending, n ∈ dependents f.node
  /-- All other dependents of a node on the stack have been entered. -/
  looked : ∀ f ∈ s.stack, ∀ n ∈ dependents f.node, n ∈ f.pending ∨ (n ≠ start ∧ n ∈ s.trail)
  /-- All dependents of a finished node have been entered, and finished before it unless they lead
      back to it. -/
  closed : ∀ m ∈ s.finished, ∀ n ∈ dependents m,
    n ≠ start ∧ n ∈ s.trail ∧ (Reaches dependents n m ∨ [m, n].Sublist s.finished)

/-! ### One step -/

/-- The walk begins with only the start entered. -/
theorem sound_initial [Std.LawfulEqOrd N] (dependents : N → List N) (start : N) :
    (initial dependents start).Sound dependents start where
  head := rfl
  nodup := List.nodup_singleton start
  reached n hn := by
    rw [List.mem_singleton.1 hn]
    exact .start
  visited n := by
    show n ∈ (∅ : Std.ExtTreeSet N).insert start ↔ n ∈ [start]
    rw [Std.ExtTreeSet.mem_insert, List.mem_singleton, Std.LawfulEqOrd.compare_eq_iff_eq]
    simp [eq_comm]
  chain := .singleton start
  pending f hf n hn := by
    rw [List.mem_singleton.1 hf] at hn ⊢
    exact hn
  looked f hf n hn := by
    rw [List.mem_singleton.1 hf] at hn ⊢
    exact Or.inl hn
  closed m hm := absurd hm List.not_mem_nil

/-- A node with nothing left to look at is finished. -/
theorem Sound.finish (h : s.Sound dependents start) (hs : s.stack = ⟨node, []⟩ :: below) :
    (s.finish node below).Sound dependents start where
  head := by rw [trail_finish hs]; exact h.head
  nodup := by rw [trail_finish hs]; exact h.nodup
  reached := by rw [trail_finish hs]; exact h.reached
  visited := by rw [trail_finish hs]; exact h.visited
  chain := by
    have hchain := h.chain
    rw [path_of_stack hs] at hchain
    exact hchain.left_of_append
  pending f hf := h.pending f (hs ▸ List.mem_cons_of_mem _ hf)
  looked f hf := by
    rw [trail_finish hs]
    exact h.looked f (hs ▸ List.mem_cons_of_mem _ hf)
  closed m hm n hn := by
    rw [trail_finish hs]
    rcases List.mem_cons.1 hm with rfl | hold
    · -- the node itself: a dependent is finished, or it is on the path that leads here
      obtain hpending | ⟨hne, hmem⟩ := h.looked ⟨m, []⟩ (hs ▸ List.mem_cons_self) n hn
      · exact absurd hpending List.not_mem_nil
      · refine ⟨hne, hmem, ?_⟩
        rcases List.mem_append.1 hmem with hpath | hfinished
        · exact Or.inl (reaches_getLast_of_isChain h.chain hpath (getLast?_path hs))
        · exact Or.inr ((List.singleton_sublist.2 hfinished).cons_cons m)
    · obtain ⟨hne, hmem, hback | hbefore⟩ := h.closed m hold n hn
      · exact ⟨hne, hmem, Or.inl hback⟩
      · exact ⟨hne, hmem, Or.inr (hbefore.cons node)⟩

/-- A dependent that was entered before is passed over. -/
theorem Sound.skip (h : s.Sound dependents start) (hs : s.stack = ⟨node, next :: rest⟩ :: below)
    (hne : next ≠ start) (hvisited : next ∈ s.visited) :
    (s.withStack (⟨node, rest⟩ :: below)).Sound dependents start := by
  have htrail : (s.withStack (⟨node, rest⟩ :: below)).trail = s.trail := trail_skip hs
  have htop : ⟨node, next :: rest⟩ ∈ s.stack := hs ▸ List.mem_cons_self
  exact
    { head := by rw [htrail]; exact h.head
      nodup := by rw [htrail]; exact h.nodup
      reached := by rw [htrail]; exact h.reached
      visited := by rw [htrail]; exact h.visited
      chain := by rw [path_skip hs]; exact h.chain
      pending := by
        intro f hf n hn
        rcases List.mem_cons.1 hf with rfl | hbelow
        · exact h.pending _ htop n (List.mem_cons_of_mem _ hn)
        · exact h.pending f (hs ▸ List.mem_cons_of_mem _ hbelow) n hn
      looked := by
        intro f hf n hn
        rw [htrail]
        rcases List.mem_cons.1 hf with rfl | hbelow
        · -- Of the dependents of the top node, one more counts as entered.
          rcases h.looked _ htop n hn with hpending | hentered
          · rcases List.mem_cons.1 hpending with rfl | hrest
            · exact Or.inr ⟨hne, (h.visited n).1 hvisited⟩
            · exact Or.inl hrest
          · exact Or.inr hentered
        · exact h.looked f (hs ▸ List.mem_cons_of_mem _ hbelow) n hn
      closed := by rw [htrail]; exact h.closed }

/-- A new dependent is entered. -/
theorem Sound.enter [Std.LawfulEqOrd N] (h : s.Sound dependents start)
    (hs : s.stack = ⟨node, next :: rest⟩ :: below) (hne : next ≠ start)
    (hnew : ¬ next ∈ s.visited) :
    ((s.withStack (⟨node, rest⟩ :: below)).enter dependents next).Sound dependents start := by
  have hmem : ∀ n, n ∈ s.path ++ next :: s.finished ↔ n = next ∨ n ∈ s.trail := by
    intro n
    rw [trail, List.mem_append, List.mem_cons, List.mem_append]
    exact or_left_comm
  have htop : ⟨node, next :: rest⟩ ∈ s.stack := hs ▸ List.mem_cons_self
  have hnext : next ∈ dependents node := h.pending _ htop next List.mem_cons_self
  exact
    { head := by
        have hhead := h.head
        rw [trail_enter hs]
        rw [trail, path_of_stack hs] at hhead
        rw [path_of_stack hs]
        -- the path is not empty, so the new node does not come first
        cases hbelow : (below.map Frame.node).reverse with
        | nil => rw [hbelow] at hhead; exact hhead
        | cons first others => rw [hbelow] at hhead; exact hhead
      nodup := by
        rw [trail_enter hs]
        have hperm : (s.path ++ next :: s.finished).Perm (next :: s.trail) := List.perm_middle
        rw [hperm.nodup_iff, List.nodup_cons]
        exact ⟨fun hin => hnew ((h.visited next).2 hin), h.nodup⟩
      reached := by
        intro n hn
        rw [trail_enter hs, hmem] at hn
        rcases hn with rfl | hold
        · exact .next (h.reached node (List.mem_append_left _ (mem_path hs))) hnext
        · exact h.reached n hold
      visited := by
        intro n
        rw [trail_enter hs, hmem, ← h.visited n]
        show n ∈ s.visited.insert next ↔ _
        rw [Std.ExtTreeSet.mem_insert, Std.LawfulEqOrd.compare_eq_iff_eq, eq_comm]
      chain := by
        rw [path_enter hs]
        refine h.chain.append (.singleton next) ?_
        intro x hx y hy
        rw [getLast?_path hs] at hx
        cases hx
        cases hy
        exact hnext
      pending := by
        intro f hf n hn
        rcases List.mem_cons.1 hf with rfl | hold
        · exact hn
        · rcases List.mem_cons.1 hold with rfl | hbelow
          · exact h.pending _ htop n (List.mem_cons_of_mem _ hn)
          · exact h.pending f (hs ▸ List.mem_cons_of_mem _ hbelow) n hn
      looked := by
        intro f hf n hn
        rw [trail_enter hs, hmem]
        rcases List.mem_cons.1 hf with rfl | hold
        · exact Or.inl hn
        · rcases List.mem_cons.1 hold with rfl | hbelow
          · rcases h.looked _ htop n hn with hpending | ⟨hstart, hentered⟩
            · rcases List.mem_cons.1 hpending with rfl | hrest
              · exact Or.inr ⟨hne, Or.inl rfl⟩
              · exact Or.inl hrest
            · exact Or.inr ⟨hstart, Or.inr hentered⟩
          · exact (h.looked f (hs ▸ List.mem_cons_of_mem _ hbelow) n hn).imp_right
              (And.imp_right Or.inr)
      closed := by
        intro m hm n hn
        rw [trail_enter hs, hmem]
        obtain ⟨hstart, hentered, horder⟩ := h.closed m hm n hn
        exact ⟨hstart, Or.inr hentered, horder⟩ }

/-! ### The whole walk -/

/-- A walk that has ended: in a sound state with nothing left on the stack, or in one whose last
    node has the start among its dependents. -/
inductive Ended (dependents : N → List N) (start : N) : Walk N → Prop where
  | order (s : Search N) : s.Sound dependents start → s.stack = [] →
      Ended dependents start ⟨s.asked.reverse, .ok s.finished⟩
  | cycle (s : Search N) (node : N) : s.Sound dependents start → s.path.getLast? = some node →
      start ∈ dependents node → Ended dependents start ⟨s.asked.reverse, .error (s.path ++ [start])⟩

/-- **The invariant over a whole walk.**  A walk that goes on from a sound state ends in one. -/
theorem run_ended [Std.LawfulEqOrd N] [DecidableEq N] (finite : FinitelyReachable dependents start)
    (reachable : s.PendingReachable dependents start) (h : s.Sound dependents start) :
    Ended dependents start (run dependents start finite s reachable) := by
  fun_induction run dependents start finite s reachable with
  | case1 s _ hs => exact .order s h hs
  | case2 s _ node below hs ih => exact ih (h.finish hs)
  | case3 s _ node rest below hs =>
    exact .cycle s node h (getLast?_path hs)
      (h.pending _ (hs ▸ List.mem_cons_self) start List.mem_cons_self)
  | case4 s _ node next rest below hs _ _ hne hvisited ih => exact ih (h.skip hs hne hvisited)
  | case5 s _ node next rest below hs _ _ hne hnew ih => exact ih (h.enter hs hne hnew)

end Search

/-! ### What the result says -/

section Result

variable {dependents : N → List N} {start : N}

/-- A list is an order of recalculation from `start`. -/
structure IsOrder (dependents : N → List N) (start : N) (order : List N) : Prop where
  /-- The start comes first. -/
  head : order.head? = some start
  /-- No node comes twice. -/
  nodup : order.Nodup
  /-- The nodes are those that can be reached. -/
  mem_iff : ∀ n, n ∈ order ↔ Reaches dependents start n
  /-- Nothing in the order has the start as a dependent. -/
  ne_start : ∀ m ∈ order, ∀ n ∈ dependents m, n ≠ start
  /-- A node comes before its dependents, unless they lead back to it. -/
  before : ∀ m ∈ order, ∀ n ∈ dependents m, Reaches dependents n m ∨ [m, n].Sublist order

/-- **A walk that gives an order** gives one in which every node that can be reached stands once,
    and before all its dependents that do not lead back to it. -/
theorem Search.Ended.isOrder [Ord N] [Std.TransOrd N] {w : Walk N} {order : List N}
    (h : Ended dependents start w) (hw : w.result = .ok order) :
    IsOrder dependents start order := by
  cases h with
  | cycle s node _ _ _ => cases hw
  | order s hs hstack =>
    cases hw
    have htrail : s.trail = s.finished := trail_of_stack_nil hstack
    have hhead := hs.head
    have hnodup := hs.nodup
    have hreached := hs.reached
    have hclosed := hs.closed
    rw [htrail] at hhead hnodup hreached hclosed
    have hstart : start ∈ s.finished := List.mem_of_head? hhead
    exact
      { head := hhead
        nodup := hnodup
        mem_iff := by
          intro n
          constructor
          · exact hreached n
          · -- the order holds the start and is closed under dependents
            intro hn
            induction hn with
            | start => exact hstart
            | next _ hdep ih => exact (hclosed _ ih _ hdep).2.1
        ne_start := fun m hm n hn => (hclosed m hm n hn).1
        before := fun m hm n hn => (hclosed m hm n hn).2.2 }

/-- A list is a cycle through `start`. -/
structure IsCycle (dependents : N → List N) (start : N) (cycle : List N) : Prop where
  /-- Every node is followed by one of its dependents. -/
  chain : cycle.IsChain (Edge dependents)
  /-- The start comes first and last, and no node comes twice in between. -/
  nodes : ∃ nodes : List N, cycle = nodes ++ [start] ∧ nodes.head? = some start ∧ nodes.Nodup

/-- **A walk that gives a cycle** gives one through the start. -/
theorem Search.Ended.isCycle [Ord N] [Std.TransOrd N] {w : Walk N} {cycle : List N}
    (h : Ended dependents start w) (hw : w.result = .error cycle) :
    IsCycle dependents start cycle := by
  cases h with
  | order s _ _ => cases hw
  | cycle s node hs hlast hback =>
    cases hw
    have hpath : s.path ≠ [] := by
      intro hnil
      rw [hnil] at hlast
      cases hlast
    have hhead := hs.head
    rw [trail, List.head?_append_of_ne_nil _ hpath] at hhead
    have hnodup : s.path.Nodup := (List.nodup_append.1 hs.nodup).1
    -- the path is closed by the start, a dependent of its last node
    refine ⟨hs.chain.append (.singleton start) ?_, s.path, rfl, hhead, hnodup⟩
    intro x hx y hy
    rw [hlast] at hx
    cases hx
    cases hy
    exact hback

section IsCycle

variable {cycle : List N}

/-- A cycle begins with the start. -/
theorem IsCycle.head?_eq (h : IsCycle dependents start cycle) : cycle.head? = some start := by
  obtain ⟨nodes, rfl, hhead, -⟩ := h.nodes
  rw [List.head?_append, hhead, Option.some_or]

/-- A cycle ends with the start. -/
theorem IsCycle.getLast?_eq (h : IsCycle dependents start cycle) :
    cycle.getLast? = some start := by
  obtain ⟨nodes, rfl, -, -⟩ := h.nodes
  exact List.getLast?_concat

/-- A cycle has at least one edge. -/
theorem IsCycle.two_le_length (h : IsCycle dependents start cycle) : 2 ≤ cycle.length := by
  obtain ⟨nodes, rfl, hhead, -⟩ := h.nodes
  have hnodes : 0 < nodes.length := List.length_pos_of_mem (List.mem_of_head? hhead)
  rw [List.length_append, List.length_singleton]
  omega

/-- Up to its end a cycle comes to no node twice. -/
theorem IsCycle.nodup_dropLast (h : IsCycle dependents start cycle) : cycle.dropLast.Nodup := by
  obtain ⟨nodes, rfl, -, hnodup⟩ := h.nodes
  rw [List.dropLast_concat]
  exact hnodup

end IsCycle

/-- The start of a cycle leads back to itself. -/
theorem IsCycle.transGen {cycle : List N} (h : IsCycle dependents start cycle) :
    TransGen (Edge dependents) start start := by
  obtain ⟨nodes, rfl, hhead, -⟩ := h.nodes
  obtain ⟨hchain, -, hlink⟩ := List.isChain_append.1 h.chain
  have hstart : start ∈ nodes := List.mem_of_head? hhead
  obtain ⟨last, hlast⟩ : ∃ last, nodes.getLast? = some last :=
    Option.isSome_iff_exists.1 (List.getLast?_isSome.2 (List.ne_nil_of_mem hstart))
  have hto : ReflTransGen (Edge dependents) start last :=
    reaches_iff.1 (reaches_getLast_of_isChain hchain hstart hlast)
  exact TransGen.tail' hto (hlink last hlast start rfl)

/-- Nothing leads from the start of an order back to it. -/
theorem IsOrder.not_transGen {order : List N} (h : IsOrder dependents start order) :
    ¬ TransGen (Edge dependents) start start := by
  intro hcycle
  obtain ⟨last, hto, hback⟩ := TransGen.tail'_iff.1 hcycle
  exact h.ne_start last ((h.mem_iff last).2 (reaches_iff.2 hto)) start hback rfl

/-- A list of all nodes that `start` leads to, each before those computed from it. -/
structure IsEvaluationOrder (r : N → N → Prop) (start : N) (order : List N) : Prop where
  head : order.head? = some start
  nodup : order.Nodup
  mem_iff : ∀ n, n ∈ order ↔ ReflTransGen r start n
  before : ∀ u ∈ order, ∀ v, r u v → [u, v].Sublist order

/-- Without cycles an order of recalculation is an order of evaluation. -/
theorem IsOrder.isEvaluationOrder {order : List N} (h : IsOrder dependents start order)
    (hacyclic : Acyclic (Edge dependents)) : IsEvaluationOrder (Edge dependents) start order where
  head := h.head
  nodup := h.nodup
  mem_iff n := (h.mem_iff n).trans reaches_iff
  before u hu v hv := by
    rcases h.before u hu v hv with hback | hbefore
    · exact absurd (TransGen.head' hv (reaches_iff.1 hback)) (hacyclic u)
    · exact hbefore

/-- Of two nodes that stand in a list one after the other, the first has the smaller place. -/
theorem idxOf_lt_of_sublist [DecidableEq N] {order : List N} {u v : N} (hnodup : order.Nodup)
    (h : [u, v].Sublist order) : order.idxOf u < order.idxOf v := by
  induction order with
  | nil => exact absurd (List.sublist_nil.1 h) (List.cons_ne_nil u [v])
  | cons w rest ih =>
    obtain ⟨hw, hnodup⟩ := List.nodup_cons.1 hnodup
    have hne : ∀ x ∈ rest, w ≠ x := fun x hx heq => hw (heq ▸ hx)
    rcases List.sublist_cons_iff.1 h with hrest | ⟨l, hl, hlater⟩
    · -- both come later
      rw [List.idxOf_cons_ne rest (hne u (hrest.mem (by simp))),
        List.idxOf_cons_ne rest (hne v (hrest.mem (by simp)))]
      exact Nat.succ_lt_succ (ih hnodup hrest)
    · -- the first is `u`
      cases hl
      rw [List.idxOf_cons_self, List.idxOf_cons_ne rest (hne v (List.singleton_sublist.1 hlater))]
      exact Nat.succ_pos _

/-- A node stands before each of its dependents that does not lead back to it. -/
theorem IsOrder.idxOf_lt [DecidableEq N] {order : List N} (h : IsOrder dependents start order)
    {u v : N} (hu : Reaches dependents start u) (huv : v ∈ dependents u)
    (hback : ¬ Reaches dependents v u) : order.idxOf u < order.idxOf v :=
  idxOf_lt_of_sublist h.nodup ((h.before u ((h.mem_iff u).2 hu) v huv).resolve_left hback)

/-- In an order of evaluation each node stands before those computed from it. -/
theorem IsEvaluationOrder.idxOf_lt [DecidableEq N] {r : N → N → Prop} {order : List N}
    (h : IsEvaluationOrder r start order) {u v : N} (hu : u ∈ order) (huv : r u v) :
    v ∈ order ∧ order.idxOf u < order.idxOf v := by
  have hbefore := h.before u hu v huv
  exact ⟨hbefore.mem (by simp), idxOf_lt_of_sublist h.nodup hbefore⟩

end Result

section RecalcOrder

variable [Ord N] [Std.TransOrd N] [Std.LawfulEqOrd N] [DecidableEq N] {dependents : N → List N}
  {start : N} {finite : FinitelyReachable dependents start}

/-- **The walk ends as the invariant says**, by going through its turns from the start. -/
theorem recalcOrder_ended : Search.Ended dependents start (recalcOrder dependents start finite) :=
  Search.run_ended finite _ (Search.sound_initial dependents start)

/-- **A cycle is found exactly when there is one through the start.** -/
theorem recalcOrder_error_iff :
    (∃ cycle, (recalcOrder dependents start finite).result = .error cycle) ↔
      TransGen (Edge dependents) start start := by
  constructor
  · rintro ⟨cycle, hcycle⟩
    exact (recalcOrder_ended.isCycle hcycle).transGen
  · intro hback
    cases hresult : (recalcOrder dependents start finite).result with
    | error cycle => exact ⟨cycle, rfl⟩
    | ok order => exact absurd hback (recalcOrder_ended.isOrder hresult).not_transGen

/-- In all other cases there is an order. -/
theorem recalcOrder_ok_iff :
    (∃ order, (recalcOrder dependents start finite).result = .ok order) ↔
      ¬ TransGen (Edge dependents) start start := by
  have herror : (∃ cycle, (recalcOrder dependents start finite).result = .error cycle) ↔
      TransGen (Edge dependents) start start := recalcOrder_error_iff
  rw [← herror]
  cases (recalcOrder dependents start finite).result with
  | ok order => simp
  | error cycle => simp

end RecalcOrder

end LiveSheet
