import LiveSheet.Proofs.Graph.Prospect
import LiveSheet.Proofs.Sheet.Recalculation
import LiveSheet.Storage.Loading

namespace LiveSheet

open Relation

/-!
# The invariant of a sheet

* `Sheet.Coherent` — the graph has exactly the references of the formulas as its edges and no cycle,
  and every cell shows what its contents stand for.
* `Sheet.EdgeAfter` — the edges that the graph has after an edit.
* `Sheet.set_circular_iff`, `Sheet.set_ok_iff` — an edit of a coherent sheet is refused exactly when
  it would close a cycle.
* `Sheet.Coherent.set` — an edit keeps a sheet coherent.
-/

namespace Sheet

/-- The graph describes the references of the formulas, has no cycle, and the values stored are
    those that the contents stand for. -/
structure Coherent (s : Sheet) : Prop where
  wellFormed : ∃ edges, s.graph.Refines edges
  hasEdge_iff : ∀ u v, s.graph.HasEdge u v ↔ s.cells.Refers u v
  acyclic : Acyclic s.graph.HasEdge
  consistent : ∀ n, s.cells.ConsistentAt n

/-- The edges after an edit: those to the cell come from the cells that its new contents refer
    to. -/
def EdgeAfter (s : Sheet) (name : CellName) (contents : Option Contents) :
    CellName → CellName → Prop :=
  Redirected s.graph.HasEdge name (· ∈ newReferences contents)

variable {s next : Sheet} {name : CellName} {contents : Option Contents} {order : List CellName}

/-! ### Whether an edit is refused -/

/-- What an edit that succeeds does. -/
theorem set_eq_ok_iff : s.set name contents = .ok (next, order) ↔
    (s.graph.prospectiveWalk name (newReferences contents)).result = .ok order ∧
      next = s.commit name contents order := by
  unfold set
  split
  · next hwalk => simp [hwalk]
  · next found hwalk =>
    rw [hwalk, Except.ok.injEq, Except.ok.injEq, Prod.mk.injEq]
    constructor
    · rintro ⟨rfl, rfl⟩
      exact ⟨rfl, rfl⟩
    · rintro ⟨rfl, rfl⟩
      exact ⟨rfl, rfl⟩

/-- **An edit is refused exactly when it would make a cycle**, wherever in the graph. -/
theorem set_circular_iff (h : Acyclic s.graph.HasEdge) :
    (∃ path, s.set name contents = .error (.circular path)) ↔
      ¬ Acyclic (s.EdgeAfter name contents) := by
  rw [EdgeAfter, ← DependencyGraph.prospectiveWalk_error_iff h]
  unfold set
  cases (s.graph.prospectiveWalk name (newReferences contents)).result with
  | ok order => simp
  | error cycle => simp

/-- A cycle is the only reason why an edit is refused. -/
theorem exists_circular_of_set_eq_error {e : EditError} (h : s.set name contents = .error e) :
    ∃ path, e = .circular path := by
  unfold set at h
  split at h
  · next path _ =>
    cases h
    exact ⟨path, rfl⟩
  · cases h

/-- All other edits succeed. -/
theorem set_ok_iff (h : Acyclic s.graph.HasEdge) :
    (∃ next order, s.set name contents = .ok (next, order)) ↔
      Acyclic (s.EdgeAfter name contents) := by
  rw [← not_iff_not, ← set_circular_iff h]
  unfold set
  cases (s.graph.prospectiveWalk name (newReferences contents)).result with
  | ok order => simp
  | error cycle => simp

/-- Contents that refer to no cell are never refused. -/
theorem exists_set_of_no_references (h : Acyclic s.graph.HasEdge)
    (hnone : ∀ u, u ∉ newReferences contents) :
    ∃ next order, s.set name contents = .ok (next, order) := by
  refine (set_ok_iff h).2 (h.mono fun u v huv => ?_)
  rcases huv with ⟨-, hu⟩ | ⟨-, hedge⟩
  · exact absurd hu (hnone u)
  · exact hedge

/-! ### The cells after an edit -/

/-- Only the edited cell holds something else after an edit. -/
theorem contents?_commit (n : CellName) : (s.commit name contents order).cells.contents? n
    = if n = name then contents else s.cells.contents? n :=
  (Cells.contents?_recalculate order n).trans (Cells.contents?_put n)

/-- An edit that succeeds gives the cell its new contents, and no other cell. -/
theorem contents?_set (hset : s.set name contents = .ok (next, order)) (n : CellName) :
    next.cells.contents? n = if n = name then contents else s.cells.contents? n := by
  obtain ⟨-, rfl⟩ := set_eq_ok_iff.1 hset
  exact contents?_commit n

/-- Every edit marks the sheet as changed. -/
theorem changed_of_set (hset : s.set name contents = .ok (next, order)) : next.changed = true := by
  obtain ⟨-, rfl⟩ := set_eq_ok_iff.1 hset
  rfl

/-- The references after an edit are those from before, but for the edited cell. -/
theorem refers_commit {u v : CellName} : (s.commit name contents order).cells.Refers u v ↔
    Redirected s.cells.Refers name (· ∈ newReferences contents) u v := by
  rw [Cells.Refers, contents?_commit, Redirected, Cells.Refers]
  by_cases hv : v = name
  · simp [hv]
  · simp [hv]

/-! ### An edit keeps a sheet coherent -/

/-- The graph after an edit has the edges that were looked at before it. -/
theorem Coherent.hasEdge_commit (h : s.Coherent) :
    (s.commit name contents order).graph.HasEdge = s.EdgeAfter name contents := by
  obtain ⟨edges, hedges⟩ := h.wellFormed
  funext u v
  rw [EdgeAfter, commit, hedges.hasEdge_replaceDependees]
  simp only [Redirected, Std.ExtTreeSet.mem_toList]

/-- **An edit gives the cells that depend on the edited one**, in an order of evaluation. -/
theorem Coherent.isEvaluationOrder (h : s.Coherent)
    (hset : s.set name contents = .ok (next, order)) :
    IsEvaluationOrder next.graph.HasEdge name order := by
  have hacyclic := (set_ok_iff h.acyclic).1 ⟨next, order, hset⟩
  obtain ⟨hwalk, rfl⟩ := set_eq_ok_iff.1 hset
  rw [h.hasEdge_commit]
  rw [EdgeAfter, ← DependencyGraph.edge_prospectiveDependents] at hacyclic ⊢
  exact (recalcOrder_ended.isOrder hwalk).isEvaluationOrder hacyclic

/-- Cells that are not in the order of an edit stay as they are. -/
theorem Coherent.getElem?_set (h : s.Coherent) (hset : s.set name contents = .ok (next, order))
    {n : CellName} (hn : n ∉ order) : next.cells[n]? = s.cells[n]? := by
  have hname : name ∈ order := List.mem_of_head? (h.isEvaluationOrder hset).head
  obtain ⟨-, rfl⟩ := set_eq_ok_iff.1 hset
  have hne : n ≠ name := fun heq => hn (heq ▸ hname)
  exact (Cells.getElem?_recalculate_of_not_mem hn).trans (Cells.getElem?_put_of_ne hne)

/-- **An edit keeps a sheet coherent.** -/
theorem Coherent.set (h : s.Coherent) (hset : s.set name contents = .ok (next, order)) :
    next.Coherent := by
  have horder := h.isEvaluationOrder hset
  have hacyclic := (set_ok_iff h.acyclic).1 ⟨next, order, hset⟩
  obtain ⟨-, rfl⟩ := set_eq_ok_iff.1 hset
  have hedges : ∀ u v, (s.commit name contents order).graph.HasEdge u v ↔
      (s.commit name contents order).cells.Refers u v := by
    intro u v
    rw [h.hasEdge_commit, refers_commit, EdgeAfter, Redirected, Redirected, h.hasEdge_iff]
  have hname : name ∈ order := List.mem_of_head? horder.head
  -- before the recalculation, only the cell and those that depend on it can be inconsistent
  have hrest : ∀ n, n ∉ order ∨ (s.cells.put name contents).formula? n = none →
      (s.cells.put name contents).ConsistentAt n := by
    intro n hn
    by_cases hne : n = name
    · subst hne
      exact Cells.consistentAt_put_self (hn.resolve_left (not_not_intro hname))
    · refine (h.consistent n).congr (Cells.getElem?_put_of_ne hne) fun u hu => ?_
      refine Cells.number?_congr (Cells.getElem?_put_of_ne ?_)
      -- a cell that refers to the edited one is in the order, and holds a formula
      rintro rfl
      have hreads : (s.commit u contents order).cells.Refers u n :=
        refers_commit.2 (Or.inr ⟨hne, hu⟩)
      have hmem : n ∈ order := (horder.before u hname n ((hedges u n).2 hreads)).mem (by simp)
      obtain ⟨f, hf, -⟩ := Cells.refers_iff.1 (Cells.refers_recalculate.1 hreads)
      rw [hn.resolve_left (not_not_intro hmem)] at hf
      cases hf
  exact
    { wellFormed := by
        obtain ⟨edges, hgraph⟩ := h.wellFormed
        exact ⟨_, hgraph.replaceDependees name _⟩
      hasEdge_iff := hedges
      acyclic := by rw [h.hasEdge_commit]; exact hacyclic
      consistent := by
        refine Cells.recalculate_consistentAt horder.nodup (fun u hu v huv => ?_) hrest
        exact horder.before u hu v ((hedges u v).2 (Cells.refers_recalculate.2 huv)) }

/-! ### Sheets without edits -/

/-- The empty sheet is coherent. -/
theorem coherent_empty : empty.Coherent := by
  have hnone : ∀ u v, ¬ empty.graph.HasEdge u v := fun _ _ => Std.ExtTreeSet.not_mem_empty
  exact
    { wellFormed := ⟨∅, DependencyGraph.refines_empty⟩
      hasEdge_iff := fun u v => iff_of_false (hnone u v) Std.ExtTreeSet.not_mem_empty
      acyclic := acyclic_of_forall_not hnone
      consistent := by
        intro n cell hcell
        cases hcell }

/-- Saving touches neither the cells nor the graph. -/
theorem Coherent.saved (h : s.Coherent) : s.saved.Coherent :=
  ⟨h.wellFormed, h.hasEdge_iff, h.acyclic, h.consistent⟩

/-! ### What the queries of a sheet say -/

/-- The query for contents answers with a formula when the cell holds one. -/
theorem contentsOf_eq_formula_iff {n : CellName} {f : Formula} :
    s.contentsOf n = .formula f ↔ s.cells.formula? n = some f := by
  rw [Cells.formula?_eq_some, Cells.contents?, contentsOf]
  cases s.cells[n]? with
  | none => simp
  | some cell => simp

/-- A cell that is not stored shows a text, so no number is read from it. -/
theorem number?_valueOf : (fun n => (s.valueOf n).number?) = s.cells.number? := by
  funext n
  rw [valueOf, Cells.number?]
  cases s.cells[n]? with
  | none => rfl
  | some cell => rfl

/-- The query for direct dependents answers with the ends of the edges. -/
theorem mem_directDependents_iff {u n : CellName} :
    n ∈ s.directDependents u ↔ s.graph.HasEdge u n :=
  Std.ExtTreeSet.mem_toList

/-- The query for direct dependents lists no cell twice. -/
theorem nodup_directDependents (u : CellName) : (s.directDependents u).Nodup :=
  DependencyGraph.nodup_toList _

/-- The graph keeps its edges in both directions. -/
theorem Coherent.mem_dependees_iff (h : s.Coherent) {u n : CellName} :
    u ∈ s.graph.dependees n ↔ s.graph.HasEdge u n := by
  obtain ⟨edges, hedges⟩ := h.wellFormed
  rw [hedges.dependees, DependencyGraph.HasEdge, hedges.dependents]

end Sheet

end LiveSheet
