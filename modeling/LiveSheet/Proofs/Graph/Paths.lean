import LiveSheet.Graph.Walk
import Mathlib.Logic.Relation
import Mathlib.Order.WellFoundedSet

namespace LiveSheet

open Relation

/-!
# Paths and cycles of a dependency relation

A relation `r` says that `r u v` holds when `v` is computed from `u`.

* `Edge` — the relation that lists of direct dependents stand for.
* `Acyclic` — no path of at least one edge leads from a node back to it.
* `Acyclic.wellFounded` — an acyclic relation on finitely many nodes allows induction along it.
* `Redirected` — the relation in which one node is computed from other nodes than before.
* `acyclic_redirected_iff` — if the old relation is acyclic, every new cycle leads through that
  node.
-/

variable {N : Type}

/-- `n` stands among the dependents listed for `m`. -/
def Edge (dependents : N → List N) (m n : N) : Prop := n ∈ dependents m

/-- Reachability in the walk's own terms is a path of any number of edges. -/
theorem reaches_iff {dependents : N → List N} {start n : N} :
    Reaches dependents start n ↔ ReflTransGen (Edge dependents) start n := by
  constructor
  · intro h
    induction h with
    | start => exact .refl
    | next _ hmem ih => exact ih.tail hmem
  · intro h
    induction h with
    | refl => exact .start
    | tail _ hmem ih => exact ih.next hmem

/-- No path of at least one edge leads from a node back to it. -/
def Acyclic (r : N → N → Prop) : Prop := ∀ n, ¬ TransGen r n n

/-- A relation with fewer edges has fewer cycles. -/
theorem Acyclic.mono {r s : N → N → Prop} (h : Acyclic s) (hrs : ∀ u v, r u v → s u v) :
    Acyclic r :=
  fun n hn => h n (TransGen.mono hrs n n hn)

/-- Where nothing is related, there is no cycle. -/
theorem acyclic_of_forall_not {r : N → N → Prop} (h : ∀ u v, ¬ r u v) : Acyclic r := by
  intro n hn
  obtain ⟨m, -, hmn⟩ := TransGen.tail'_iff.1 hn
  exact h m n hmn

/-- **Induction along an acyclic relation.**  If only finitely many nodes have anything computed
    from them, then from every node the way back ends. -/
theorem Acyclic.wellFounded {r : N → N → Prop} (h : Acyclic r) {nodes : Finset N}
    (hnodes : ∀ u v, r u v → u ∈ nodes) : WellFounded r := by
  have hstrict : IsStrictOrder N (TransGen r) :=
    { irrefl := h, trans := fun _ _ _ => TransGen.trans }
  -- a node is accessible because only finitely many lead to it, and they are strictly ordered
  refine ⟨fun a => ?_⟩
  have hfinite : {b | TransGen r b a}.Finite :=
    nodes.finite_toSet.subset fun b hb => by
      obtain ⟨c, hbc, -⟩ := TransGen.head'_iff.1 hb
      exact hnodes b c hbc
  have hwf : {b | TransGen r b a}.WellFoundedOn (TransGen r) := hfinite.wellFoundedOn
  exact (Set.WellFoundedOn.acc_iff_wellFoundedOn.out 0 2).2
    (hwf.mono (fun _ _ => .single) subset_rfl)

/-! ### One node computed from other nodes than before -/

/-- The relation `r`, but with `node` computed from the given nodes and from nothing else. -/
def Redirected (r : N → N → Prop) (node : N) (sources : N → Prop) (u v : N) : Prop :=
  (v = node ∧ sources u) ∨ (v ≠ node ∧ r u v)

section Redirected

variable {r : N → N → Prop} {node : N} {sources : N → Prop}

/-- A path that is not one of the old relation leads through the node. -/
theorem transGen_redirected {a b : N} (h : TransGen (Redirected r node sources) a b) :
    TransGen r a b ∨
      (ReflTransGen (Redirected r node sources) a node ∧
        ReflTransGen (Redirected r node sources) node b) := by
  induction h with
  | @single b hab =>
    rcases hab with ⟨rfl, hsource⟩ | ⟨-, hr⟩
    · exact Or.inr ⟨.single (Or.inl ⟨rfl, hsource⟩), .refl⟩
    · exact Or.inl (.single hr)
  | @tail b c hab hbc ih =>
    -- a path that ends in the node needs nothing of what was before
    by_cases hc : c = node
    · subst hc
      exact Or.inr ⟨(hab.tail hbc).to_reflTransGen, .refl⟩
    · rcases ih with hold | ⟨hto, hfrom⟩
      · rcases hbc with ⟨hc', -⟩ | ⟨-, hr⟩
        · exact absurd hc' hc
        · exact Or.inl (hold.tail hr)
      · exact Or.inr ⟨hto, hfrom.tail hbc⟩

/-- **New cycles lead through the changed node.**  If the old relation is acyclic, it is enough to
    look for a path from the node back to it. -/
theorem acyclic_redirected_iff (h : Acyclic r) :
    Acyclic (Redirected r node sources) ↔ ¬ TransGen (Redirected r node sources) node node := by
  constructor
  · intro hacyclic
    exact hacyclic node
  · intro hnode n hn
    rcases transGen_redirected hn with hold | ⟨hto, hfrom⟩
    · exact h n hold
    -- the cycle can be begun at the node
    · exact hnode (TransGen.trans_right hfrom (TransGen.trans_left hn hto))

end Redirected

end LiveSheet
