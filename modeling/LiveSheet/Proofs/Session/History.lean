import LiveSheet.Proofs.Session.Edits
import LiveSheet.Proofs.Sheet.Uniqueness

namespace LiveSheet

/-!
# Sessions forget how a sheet was made

* `Session.contents?_run_retype` — cells can be given their target contents in any order.
* `Session.run_determined` — two sessions whose sheets hold the same contents have the same sheet.
-/

namespace Session

variable {target : CellName → Option Contents}

/-- The edits that give each of some cells its target contents. -/
def retype (target : CellName → Option Contents) (names : List CellName) : List Action :=
  names.map fun n => .set n (target n)

/-- **Building a sheet.**  If the references of the target contents have no cycle, then the cells of
    a sheet that has only some of these contents can be given theirs in any order. -/
theorem contents?_run_retype (hacyclic : Acyclic fun u v => u ∈ Sheet.newReferences (target v))
    {s : Session} (h : s.sheet.Coherent)
    (hpart : ∀ n, s.sheet.cells.contents? n = none ∨ s.sheet.cells.contents? n = target n)
    (names : List CellName) (n : CellName) :
    (s.run (retype target names)).sheet.cells.contents? n
      = if n ∈ names then target n else s.sheet.cells.contents? n := by
  induction names generalizing s with
  | nil => rfl
  | cons cell rest ih =>
    obtain ⟨next, order, hset⟩ := h.exists_set_towards hacyclic hpart cell
    have hperform : s.perform (.set cell (target cell)) = ⟨next, s.files⟩ :=
      perform_of_ok (edited_eq_ok_iff.2 ⟨hset, rfl⟩)
    have hnext : ∀ m, next.cells.contents? m
        = if m = cell then target m else s.sheet.cells.contents? m := by
      intro m
      rw [Sheet.contents?_set hset]
      by_cases hm : m = cell
      · rw [if_pos hm, if_pos hm, hm]
      · rw [if_neg hm, if_neg hm]
    -- the step keeps to the target, so the rest of the edits can go on from there
    have hpart' : ∀ m, next.cells.contents? m = none ∨ next.cells.contents? m = target m := by
      intro m
      rw [hnext]
      by_cases hm : m = cell
      · exact Or.inr (if_pos hm)
      · rw [if_neg hm]
        exact hpart m
    show ((s.perform (.set cell (target cell))).run
      (retype target rest)).sheet.cells.contents? n = _
    rw [hperform, ih (h.set hset) hpart', hnext]
    by_cases hrest : n ∈ rest
    · rw [if_pos hrest, if_pos (List.mem_cons_of_mem cell hrest)]
    · simp [hrest]

/-- **A sheet is a function of its contents, not of its history.**
    * Two sessions, whatever their files and actions, whose sheets hold the same contents show the
      same values and have the same graph.
    * Two edits of different cells that succeed in both orders lead to the same session.
    * Giving an empty sheet the contents of a sheet again, in any order that leaves out none of its
      cells, leads to the same cells and the same graph. -/
theorem run_determined (files files' : Files) (actions actions' : List Action) :
    let s := (start files).run actions
    let t := (start files').run actions'
    ((∀ n, s.sheet.cells.contents? n = t.sheet.cells.contents? n) →
      s.sheet.cells = t.sheet.cells ∧ s.sheet.graph = t.sheet.graph) ∧
    (∀ (a b : Action) (cell cell' : CellName) (sa sb sab sba : Session)
        (oa ob oab oba : List CellName),
      a.cell? = some cell → b.cell? = some cell' → cell ≠ cell' →
      s.attempt a = .ok (sa, oa) → sa.attempt b = .ok (sab, oab) →
      s.attempt b = .ok (sb, ob) → sb.attempt a = .ok (sba, oba) → sab = sba) ∧
    ∀ names : List CellName, (∀ n ∈ s.sheet.names, n ∈ names) →
      let rebuilt := (start files').run (retype s.sheet.cells.contents? names)
      rebuilt.sheet.cells = s.sheet.cells ∧ rebuilt.sheet.graph = s.sheet.graph := by
  intro s t
  have hs : s.sheet.Coherent := run_coherent files actions
  have ht : t.sheet.Coherent := run_coherent files' actions'
  refine ⟨hs.unique ht, ?_, ?_⟩
  · intro a b cell cell' sa sb sab sba oa ob oab oba ha hb hne h₁ h₁₂ h₂ h₂₁
    obtain ⟨contents, hedita⟩ := attempt_edit ha h₁
    obtain ⟨contents', heditb⟩ := attempt_edit hb h₂
    rw [hedita, edited_eq_ok_iff] at h₁ h₂₁
    rw [heditb, edited_eq_ok_iff] at h₂ h₁₂
    have hsheet : sab.sheet = sba.sheet := hs.set_comm hne h₁.1 h₁₂.1 h₂.1 h₂₁.1
    have hfiles : sab.files = sba.files := by
      rw [h₁₂.2, h₁.2, h₂₁.2, h₂.2]
    obtain ⟨sheet, fs⟩ := sab
    obtain ⟨sheet', fs'⟩ := sba
    cases hsheet
    cases hfiles
    rfl
  · intro names hnames rebuilt
    have hacyclic : Acyclic s.sheet.cells.Refers :=
      hs.acyclic.mono fun u v => (hs.hasEdge_iff u v).2
    -- the rebuilt sheet is coherent as any other, so its contents are all there is to look at
    refine Sheet.Coherent.unique (run_coherent files' _) hs fun n => ?_
    rw [contents?_run_retype hacyclic Sheet.coherent_empty (fun _ => Or.inl rfl)]
    by_cases hn : n ∈ names
    · exact if_pos hn
    · -- a cell that is left out is empty
      have hempty : s.sheet.cells.contents? n = none := by
        rw [Cells.contents?, Std.ExtTreeMap.getElem?_eq_none fun hmem => hn (hnames n ?_)]
        · rfl
        · exact Std.ExtTreeMap.mem_keys.2 hmem
      rw [if_neg hn, hempty]
      rfl

end Session

end LiveSheet
