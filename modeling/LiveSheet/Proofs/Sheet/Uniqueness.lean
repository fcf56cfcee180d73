import LiveSheet.Proofs.Sheet.Coherence

namespace LiveSheet

open Relation

/-!
# A coherent sheet is a function of its contents

The values of a coherent sheet solve one equation for each cell, and the equations have one
solution: a cell is computed from others that come earlier along the references, which have no
cycle.  The graph is given by the references too.

* `Cells.eq_of_consistent` — the values are determined by the contents.
* `Sheet.Coherent.unique` — so is all of a sheet but the mark for unsaved edits.
* `Sheet.Coherent.set_comm` — edits of different cells can change places.
* `Sheet.Coherent.exists_set_towards` — on the way to contents without a cycle no edit is refused.
-/

/-- **Consistent cells with the same contents are the same.** -/
theorem Cells.eq_of_consistent {cells cells' : Cells} (hwf : WellFounded cells.Refers)
    (h : ∀ n, cells.ConsistentAt n) (h' : ∀ n, cells'.ConsistentAt n)
    (hcontents : ∀ n, cells.contents? n = cells'.contents? n) : cells = cells' := by
  refine Std.ExtTreeMap.ext_getElem? fun n => ?_
  -- along the references: the cells that `n` refers to are the same already
  induction n using hwf.induction with
  | _ n ih =>
    have hn : cells[n]?.map Cell.contents = cells'[n]?.map Cell.contents := hcontents n
    cases hcell : cells[n]? with
    | none =>
      rw [hcell] at hn
      exact (Option.map_eq_none_iff.1 hn.symm).symm
    | some cell =>
      rw [hcell] at hn
      obtain ⟨cell', hcell', hsame⟩ := Option.map_eq_some_iff.1 hn.symm
      have hread : ∀ u ∈ cell.contents.references, cells.number? u = cells'.number? u := by
        intro u hu
        have hrefers : cells.Refers u n := by
          rw [Refers, contents?, hcell]
          exact hu
        exact number?_congr (ih u hrefers)
      have hvalue : cell.value = cell'.value :=
        calc cell.value = cell.contents.shown cells.number? := h n cell hcell
          _ = cell.contents.shown cells'.number? := Contents.shown_congr hread
          _ = cell'.contents.shown cells'.number? := by rw [hsame]
          _ = cell'.value := (h' n cell' hcell').symm
      rw [hcell']
      obtain ⟨contents, value⟩ := cell
      obtain ⟨contents', value'⟩ := cell'
      cases hsame
      cases hvalue
      rfl

namespace Sheet

variable {s t : Sheet}

/-- The cells of a coherent sheet can be taken one after the other along the references. -/
theorem Coherent.wellFounded (h : s.Coherent) : WellFounded s.cells.Refers := by
  obtain ⟨edges, hedges⟩ := h.wellFormed
  have hrefers : s.cells.Refers = s.graph.HasEdge :=
    funext fun u => funext fun v => propext (h.hasEdge_iff u v).symm
  have hnodes : ∀ u v, s.graph.HasEdge u v → u ∈ edges.image Prod.fst := fun u v huv =>
    Finset.mem_image.2 ⟨(u, v), (hedges.dependents u v).1 huv, rfl⟩
  rw [hrefers]
  exact h.acyclic.wellFounded hnodes

/-- The graph is determined by the references. -/
theorem Coherent.graph_unique (hs : s.Coherent) (ht : t.Coherent)
    (hrefers : ∀ u v, s.cells.Refers u v ↔ t.cells.Refers u v) : s.graph = t.graph := by
  obtain ⟨edges, hedges⟩ := hs.wellFormed
  obtain ⟨edges', hedges'⟩ := ht.wellFormed
  have hsame : edges = edges' := by
    ext ⟨u, v⟩
    rw [← hedges.dependents, ← hedges'.dependents]
    exact (hs.hasEdge_iff u v).trans ((hrefers u v).trans (ht.hasEdge_iff u v).symm)
  rw [← hsame] at hedges'
  exact hedges.unique hedges'

/-- **Coherent sheets with the same contents** have the same cells and the same graph. -/
theorem Coherent.unique (hs : s.Coherent) (ht : t.Coherent)
    (hcontents : ∀ n, s.cells.contents? n = t.cells.contents? n) :
    s.cells = t.cells ∧ s.graph = t.graph := by
  have hcells := Cells.eq_of_consistent hs.wellFounded hs.consistent ht.consistent hcontents
  exact ⟨hcells, hs.graph_unique ht fun u v => by rw [hcells]⟩

/-! ### Edits in another order -/

/-- **Edits of different cells can change places**, if they succeed in both orders. -/
theorem Coherent.set_comm {s₁ s₂ s₁₂ s₂₁ : Sheet} {cell cell' : CellName}
    {contents contents' : Option Contents} {order₁ order₂ order₁₂ order₂₁ : List CellName}
    (h : s.Coherent) (hne : cell ≠ cell')
    (h₁ : s.set cell contents = .ok (s₁, order₁))
    (h₁₂ : s₁.set cell' contents' = .ok (s₁₂, order₁₂))
    (h₂ : s.set cell' contents' = .ok (s₂, order₂))
    (h₂₁ : s₂.set cell contents = .ok (s₂₁, order₂₁)) :
    s₁₂ = s₂₁ := by
  have hcontents : ∀ n, s₁₂.cells.contents? n = s₂₁.cells.contents? n := by
    intro n
    rw [contents?_set h₁₂, contents?_set h₁, contents?_set h₂₁, contents?_set h₂]
    by_cases hn : n = cell
    · subst hn
      rw [if_neg hne, if_pos rfl, if_pos rfl]
    · rw [if_neg hn, if_neg hn]
  obtain ⟨hcells, hgraph⟩ := ((h.set h₁).set h₁₂).unique ((h.set h₂).set h₂₁) hcontents
  -- both are marked as edited
  obtain ⟨-, rfl⟩ := set_eq_ok_iff.1 h₁₂
  obtain ⟨-, rfl⟩ := set_eq_ok_iff.1 h₂₁
  rw [commit, commit, Sheet.mk.injEq]
  exact ⟨hcells, hgraph, rfl⟩

/-! ### Building a sheet -/

/-- **No edit on the way is refused.**  If the references of given contents have no cycle, then each
    cell of a sheet that has only some of these contents can be given its own. -/
theorem Coherent.exists_set_towards (h : s.Coherent) {target : CellName → Option Contents}
    (hacyclic : Acyclic fun u v => u ∈ newReferences (target v))
    (hpart : ∀ n, s.cells.contents? n = none ∨ s.cells.contents? n = target n) (cell : CellName) :
    ∃ next order, s.set cell (target cell) = .ok (next, order) := by
  refine (set_ok_iff h.acyclic).2 (hacyclic.mono fun u v huv => ?_)
  rcases huv with ⟨rfl, hu⟩ | ⟨-, hedge⟩
  · exact hu
  · have hrefers : u ∈ newReferences (s.cells.contents? v) := (h.hasEdge_iff u v).1 hedge
    rcases hpart v with hnone | hsome
    · rw [hnone] at hrefers
      exact absurd hrefers Std.ExtTreeSet.not_mem_empty
    · rw [hsome] at hrefers
      exact hrefers

end Sheet

end LiveSheet
