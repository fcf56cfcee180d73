import Std.Data.ExtTreeSet.Lemmas

namespace LiveSheet

/-!
# The order of recalculation

When a node changes, the nodes that depend on it, directly or through others, have to be computed
again, each after all that it depends on.  A depth-first walk from the changed node finishes a node
after everything that depends on it, so the nodes in the reverse order of finishing are in a valid
order of computation.  A walk that comes back to its start has found a cycle through the start.

* `Reaches` — the nodes that can be reached from a start.
* `FinitelyReachable` — only finitely many nodes can be reached; then the walk ends.
* `Walk` — what a walk finds: the nodes whose dependents it asked for, in order, and the order of
  recalculation or the cycle.
* `recalcOrder` — the walk.
-/

/-- The nodes that can be reached from `start`; `dependents n` are the nodes that depend on `n`. -/
inductive Reaches {N : Type} (dependents : N → List N) (start : N) : N → Prop where
  | start : Reaches dependents start start
  | next {m n : N} : Reaches dependents start m → n ∈ dependents m → Reaches dependents start n

/-- Only finitely many nodes can be reached from `start`. -/
def FinitelyReachable {N : Type} (dependents : N → List N) (start : N) : Prop :=
  ∃ nodes : List N, ∀ n, Reaches dependents start n → n ∈ nodes

/-- If all dependents lie in one list, only finitely many nodes can be reached. -/
theorem finitelyReachable_of_mem {N : Type} {dependents : N → List N} (nodes : List N)
    (h : ∀ m n, n ∈ dependents m → n ∈ nodes) (start : N) : FinitelyReachable dependents start := by
  refine ⟨start :: nodes, fun n hn => ?_⟩
  cases hn with
  | start => exact List.mem_cons_self
  | next _ hmem => exact List.mem_cons_of_mem _ (h _ _ hmem)

/-- What a walk finds. -/
structure Walk (N : Type) where
  /-- The nodes whose dependents were asked for, in order. -/
  asked : List N
  /-- The order of recalculation, or a cycle from the start back to it. -/
  result : Except (List N) (List N)

/-- A node that the walk has entered, with its dependents that are still to be looked at. -/
structure Frame (N : Type) where
  node : N
  pending : List N

/-- The state of a walk. -/
structure Search (N : Type) [Ord N] where
  /-- The nodes entered and not finished, the last one first. -/
  stack : List (Frame N)
  /-- The nodes entered. -/
  visited : Std.ExtTreeSet N
  /-- The nodes entered, the last one first. -/
  asked : List N
  /-- The nodes finished, the last one first. -/
  finished : List N

namespace Search

variable {N : Type} [Ord N] [Std.TransOrd N]

/-- The walk has entered the start. -/
def initial (dependents : N → List N) (start : N) : Search N :=
  ⟨[⟨start, dependents start⟩], (∅ : Std.ExtTreeSet N).insert start, [start], []⟩

/-- Enters a node. -/
def enter (dependents : N → List N) (s : Search N) (n : N) : Search N :=
  ⟨⟨n, dependents n⟩ :: s.stack, s.visited.insert n, n :: s.asked, s.finished⟩

/-- The walk goes on with another stack. -/
def withStack (s : Search N) (stack : List (Frame N)) : Search N :=
  ⟨stack, s.visited, s.asked, s.finished⟩

/-- Finishes a node. -/
def finish (s : Search N) (n : N) (below : List (Frame N)) : Search N :=
  ⟨below, s.visited, s.asked, n :: s.finished⟩

/-- The nodes from the start to the place of the walk. -/
def path (s : Search N) : List N := (s.stack.map Frame.node).reverse

/-- All that is still to be looked at can be reached. -/
def PendingReachable (dependents : N → List N) (start : N) (s : Search N) : Prop :=
  ∀ f ∈ s.stack, ∀ n ∈ f.pending, Reaches dependents start n

/-- How much is on the stack. -/
def load (s : Search N) : Nat :=
  s.stack.foldr (fun f total => f.pending.length + 1 + total) 0

/-- How many of the given nodes the walk has not entered. -/
def unvisited (s : Search N) (nodes : List N) : Nat := nodes.countP fun n => !s.visited.contains n

/-- Entering a new node of a list leaves fewer nodes of the list to enter. -/
theorem unvisited_enter_lt [Std.LawfulEqOrd N] {dependents : N → List N} {s : Search N} {n : N}
    {nodes : List N} (hmem : n ∈ nodes) (hnew : ¬ n ∈ s.visited) :
    (s.enter dependents n).unvisited nodes < s.unvisited nodes := by
  have hle : ∀ l : List N, (s.enter dependents n).unvisited l ≤ s.unvisited l := fun l =>
    List.countP_mono_left fun m _ hm => by
      simp only [enter, Std.ExtTreeSet.contains_insert, Bool.not_eq_true',
        Bool.or_eq_false_iff] at hm
      simp only [hm.2, Bool.not_false]
  -- the entered node is counted no longer, and no other one is counted anew
  induction nodes with
  | nil => exact absurd hmem (List.not_mem_nil)
  | cons m rest ih =>
    by_cases hm : m = n
    · have hin : (s.enter dependents n).visited.contains m = true := by
        simp only [enter, hm, Std.ExtTreeSet.contains_insert_self]
      have hout : s.visited.contains m = false := by
        rw [hm]
        exact Bool.eq_false_iff.2 hnew
      have hrest := hle rest
      simp only [unvisited, List.countP_cons, hin, hout, Bool.not_true, Bool.not_false,
        Bool.false_eq_true, if_false, if_true] at hrest ⊢
      omega
    · have hrest := ih ((List.mem_cons.1 hmem).resolve_left (Ne.symm hm))
      have hsame : (s.enter dependents n).visited.contains m = s.visited.contains m := by
        have hne : compare n m ≠ .eq := fun h => hm (Std.LawfulEqOrd.eq_of_compare h).symm
        simp only [enter, Std.ExtTreeSet.contains_insert]
        cases hc : compare n m <;> simp_all
      simp only [unvisited, List.countP_cons, hsame] at hrest ⊢
      omega

/-- Goes on with a walk until the stack is empty or the start is reached again. -/
def run [Std.LawfulEqOrd N] [DecidableEq N] (dependents : N → List N) (start : N)
    (finite : FinitelyReachable dependents start) (s : Search N)
    (reachable : s.PendingReachable dependents start) : Walk N :=
  match hs : s.stack with
  | [] => ⟨s.asked.reverse, .ok s.finished⟩
  | ⟨node, []⟩ :: below =>
    run dependents start finite (s.finish node below)
      (fun f hf => reachable f (hs ▸ List.mem_cons_of_mem _ hf))
  | ⟨node, next :: rest⟩ :: below =>
    -- what is pending on top is reachable, so the measure counts it
    have hnext : Reaches dependents start next :=
      reachable ⟨node, next :: rest⟩ (hs ▸ List.mem_cons_self) next List.mem_cons_self
    have htail : (s.withStack (⟨node, rest⟩ :: below)).PendingReachable dependents start :=
      fun f hf n hn => by
        rcases List.mem_cons.1 hf with rfl | hbelow
        · exact reachable ⟨node, next :: rest⟩ (hs ▸ List.mem_cons_self) n
            (List.mem_cons_of_mem _ hn)
        · exact reachable f (hs ▸ List.mem_cons_of_mem _ hbelow) n hn
    if next = start then ⟨s.asked.reverse, .error (s.path ++ [start])⟩
    else if hv : next ∈ s.visited then
      run dependents start finite (s.withStack (⟨node, rest⟩ :: below)) htail
    else
      run dependents start finite ((s.withStack (⟨node, rest⟩ :: below)).enter dependents next)
        (fun f hf n hn => by
          rcases List.mem_cons.1 hf with rfl | hbelow
          · exact .next hnext hn
          · exact htail f hbelow n hn)
termination_by (s.unvisited finite.choose, s.load)
decreasing_by
  · refine Prod.Lex.right _ ?_
    simp only [load, finish, hs, List.foldr_cons]
    omega
  · refine Prod.Lex.right _ ?_
    simp only [load, withStack, hs, List.foldr_cons, List.length_cons]
    omega
  · exact Prod.Lex.left _ _ (unvisited_enter_lt (finite.choose_spec _ hnext) hv)

end Search

/-- Walks depth-first from `start` along `dependents`, in the order in which they are listed. -/
def recalcOrder {N : Type} [Ord N] [Std.TransOrd N] [Std.LawfulEqOrd N] [DecidableEq N]
    (dependents : N → List N) (start : N) (finite : FinitelyReachable dependents start) : Walk N :=
  Search.run dependents start finite (Search.initial dependents start) fun f hf n hn => by
    rcases List.mem_singleton.1 hf with rfl
    exact .next .start hn

/-- The message for a cycle, given as texts from the start back to it. -/
def cycleMessage (path : List String) : String :=
  "Circular dependency detected: " ++ " -> ".intercalate path

end LiveSheet
