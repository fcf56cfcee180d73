import LiveSheet.Proofs.Cell.Typing
import LiveSheet.Proofs.Session.Invariant

namespace LiveSheet

open Relation

/-!
# Edits of a sheet at work

* `Sheet.enter_invalidName_iff`, `Sheet.enter_formula_iff` — which texts are refused.
* `Action.cell?` — the cell that an action edits.
* `Session.attempt_edit` — an action that edits a cell is the same edit in every session.
* `Session.edit_refused_iff` — when an edit is refused, and what it does otherwise.
* `Session.edit_order` — the cells that an edit gives are those to evaluate again, in order.
-/

namespace Sheet

variable {s : Sheet} {name input : String}

/-! ### Which texts are refused -/

/-- A text names no cell unless it is letters followed by digits. -/
theorem ofText?_eq_none_iff : CellName.ofText? name = none ↔ ¬ IsCellText name := by
  rw [← CellName.exists_ofText?_iff, ← Option.ne_none_iff_exists', not_not]

/-- The name is looked at first. -/
theorem enter_invalidName_iff : s.enter name input = .error (.invalidName name) ↔
    ¬ IsCellText name := by
  rw [← ofText?_eq_none_iff]
  unfold enter
  cases CellName.ofText? name with
  | none => simp
  | some cell =>
    refine iff_of_false (fun h => ?_) (Option.some_ne_none cell)
    cases hcontents : Contents.ofInput input with
    | error fault => simp [hcontents] at h
    | ok contents =>
      simp only [hcontents] at h
      obtain ⟨path, hpath⟩ := exists_circular_of_set_eq_error h
      cases hpath

/-- The text is looked at next. -/
theorem enter_formula_iff : (∃ fault, s.enter name input = .error (.formula fault)) ↔
    IsCellText name ∧ IsBrokenFormula input := by
  rw [← CellName.exists_ofText?_iff, ← Contents.exists_ofInput_error_iff]
  unfold enter
  cases CellName.ofText? name with
  | none => simp
  | some cell =>
    cases hcontents : Contents.ofInput input with
    | error fault => simp
    | ok contents =>
      refine iff_of_false ?_ (by simp)
      rintro ⟨fault, h⟩
      obtain ⟨path, hpath⟩ := exists_circular_of_set_eq_error h
      cases hpath

/-- The other texts are typed into a cell. -/
theorem enter_eq_set (hname : IsCellText name) (hinput : ¬ IsBrokenFormula input) :
    ∃ cell contents, CellName.ofText? name = some cell ∧ Contents.ofInput input = .ok contents ∧
      ∀ s : Sheet, s.enter name input = s.set cell contents := by
  obtain ⟨cell, hcell⟩ := (CellName.exists_ofText?_iff name).2 hname
  cases hcontents : Contents.ofInput input with
  | error fault =>
    exact absurd ((Contents.exists_ofInput_error_iff input).1 ⟨fault, hcontents⟩) hinput
  | ok contents =>
    refine ⟨cell, contents, hcell, rfl, fun s => ?_⟩
    simp only [enter, hcell, hcontents]

end Sheet

/-- The cell that an action edits, if it is an edit. -/
def Action.cell? : Action → Option CellName
  | .enter name _ => CellName.ofText? name
  | .set cell _ => some cell
  | .loadText _ => none
  | .loadFile _ => none
  | .save _ _ => none

namespace Session

variable {s next : Session} {a : Action} {cell : CellName} {order : List CellName}

/-- An action that edits a cell, and is not refused for its text, is the same edit in every
    session. -/
theorem attempt_edit (hcell : a.cell? = some cell) (hok : s.attempt a = .ok (next, order)) :
    ∃ contents, ∀ t : Session, t.attempt a = t.edited (t.sheet.set cell contents) := by
  cases a with
  | enter name input =>
    obtain ⟨cell', contents, hname, hinput, -⟩ := Sheet.enter_eq_ok_iff.1 (edited_eq_ok_iff.1 hok).1
    -- the name gives one cell only
    have hsame : cell' = cell := Option.some.inj (hname.symm.trans hcell)
    refine ⟨contents, fun t => ?_⟩
    rw [attempt, Sheet.enter, hname, hinput, hsame]
  | set cell' contents =>
    cases hcell
    exact ⟨contents, fun t => rfl⟩
  | loadText text => cases hcell
  | loadFile path => cases hcell
  | save path layout => cases hcell

/-- **When an edit is refused, and what it does otherwise.**  In every session:
    * A text is refused for its name exactly when this is not letters followed by digits, otherwise
      for itself exactly when it is an equals sign and after it no formula, and otherwise it is an
      edit with the contents that it stands for, which are none for the empty text.
    * An edit is refused exactly when the graph would have a cycle, wherever, with the references of
      the new contents in place of the edges to the cell.  Otherwise the cell holds the new
      contents, and all other cells what they held.
    * What is refused changes nothing. -/
theorem edit_refused_iff (files : Files) (actions : List Action) :
    let s := (start files).run actions
    (∀ name input,
      (s.attempt (.enter name input) = .error (.edit (.invalidName name)) ↔ ¬ IsCellText name) ∧
      ((∃ fault, s.attempt (.enter name input) = .error (.edit (.formula fault))) ↔
        IsCellText name ∧ IsBrokenFormula input) ∧
      (IsCellText name → ¬ IsBrokenFormula input → ∃ cell contents,
        CellName.ofText? name = some cell ∧ Contents.ofInput input = .ok contents ∧
          (contents = none ↔ input = "") ∧
          s.attempt (.enter name input) = s.attempt (.set cell contents))) ∧
    (∀ cell contents,
      ((∃ path, s.attempt (.set cell contents) = .error (.edit (.circular path))) ↔
        ∃ n, TransGen (s.sheet.EdgeAfter cell contents) n n) ∧
      ((∃ next order, s.attempt (.set cell contents) = .ok (next, order)) ↔
        ¬ ∃ n, TransGen (s.sheet.EdgeAfter cell contents) n n) ∧
      ∀ next order, s.attempt (.set cell contents) = .ok (next, order) → ∀ n,
        next.sheet.cells.contents? n = if n = cell then contents else s.sheet.cells.contents? n) ∧
    ∀ a e, s.attempt a = .error e → s.perform a = s := by
  intro s
  -- The graph has no cycle, so one after the edit can only go through the cell.
  have hacyclic : Acyclic s.sheet.graph.HasEdge := (run_coherent files actions).acyclic
  refine ⟨fun name input => ⟨?_, ?_, ?_⟩, fun cell contents => ⟨?_, ?_, ?_⟩, ?_⟩
  · rw [← Sheet.enter_invalidName_iff, attempt, edited_eq_error_iff]
  · simp only [attempt, edited_eq_error_iff]
    exact Sheet.enter_formula_iff
  · intro hname hinput
    obtain ⟨cell, contents, hcell, hcontents, henter⟩ := Sheet.enter_eq_set hname hinput
    refine ⟨cell, contents, hcell, hcontents, ?_, ?_⟩
    · rw [← Contents.ofInput_eq_none_iff, hcontents, Except.ok.injEq]
    · rw [attempt, attempt, henter]
  · simp only [attempt, edited_eq_error_iff]
    rw [Sheet.set_circular_iff hacyclic, Acyclic, not_forall_not]
  · rw [not_exists]
    refine Iff.trans ?_ (Sheet.set_ok_iff hacyclic)
    simp only [attempt, edited_eq_ok_iff]
    constructor
    · rintro ⟨next, order, hset, -⟩
      exact ⟨next.sheet, order, hset⟩
    · rintro ⟨sheet, order, hset⟩
      exact ⟨⟨sheet, s.files⟩, order, hset, rfl⟩
  · intro next order hok
    exact Sheet.contents?_set (edited_eq_ok_iff.1 hok).1
  · exact fun a e h => perform_of_error h

/-- **The cells that an edit gives** are the edited one and those that depend on it after the edit,
    each once, the edited one first and each before those that are computed from it.  All other
    cells keep their contents and their values. -/
theorem edit_order (files : Files) (actions : List Action) (hcell : a.cell? = some cell)
    (hok : ((start files).run actions).attempt a = .ok (next, order)) :
    order.Nodup ∧ order.head? = some cell ∧
      (∀ n, n ∈ order ↔ ReflTransGen next.sheet.graph.HasEdge cell n) ∧
      (∀ u v, u ∈ order → next.sheet.graph.contains u v = true →
        v ∈ order ∧ order.idxOf u < order.idxOf v) ∧
      ∀ n, n ∉ order → next.sheet.cells[n]? = ((start files).run actions).sheet.cells[n]? := by
  have hcoherent := run_coherent files actions
  obtain ⟨contents, hedit⟩ := attempt_edit hcell hok
  rw [hedit, edited_eq_ok_iff] at hok
  have horder := hcoherent.isEvaluationOrder hok.1
  refine ⟨horder.nodup, horder.head, horder.mem_iff, fun u v hu huv => ?_, fun n hn => ?_⟩
  · exact horder.idxOf_lt hu (DependencyGraph.hasEdge_iff_contains.2 huv)
  · exact hcoherent.getElem?_set hok.1 hn

/-! ### A cell that mirrors another -/

/-- The cell that is mirrored. -/
def sourceCell : CellName := ⟨"B1", by decide⟩

/-- The cell that holds the formula. -/
def mirrorCell : CellName := ⟨"A1", by decide⟩

/-- The session after `=B1` is put into `A1`. -/
def mirroring : List Action := [.set mirrorCell (some (.formula ⟨[.cell sourceCell], by decide⟩))]

/-- After `=B1` is put into `A1`, clearing `B1` evaluates `B1` and after it `A1`, the two cells that
    lead on from `B1`. -/
theorem edit_order_mirroring : ∃ next,
    ((start ∅).run mirroring).attempt (.set sourceCell none) =
        .ok (next, [sourceCell, mirrorCell]) ∧
      (∀ n, n ∈ [sourceCell, mirrorCell] ↔ ReflTransGen next.sheet.graph.HasEdge sourceCell n) ∧
      ∀ u v, u ∈ [sourceCell, mirrorCell] → next.sheet.graph.contains u v = true →
        v ∈ [sourceCell, mirrorCell] ∧
          [sourceCell, mirrorCell].idxOf u < [sourceCell, mirrorCell].idxOf v := by
  have hwalk : (((start ∅).run mirroring).sheet.graph.prospectiveWalk sourceCell
      (Sheet.newReferences none)).result = .ok [sourceCell, mirrorCell] := by cbv
  have hset := Sheet.set_eq_ok_iff.2 ⟨hwalk, rfl⟩
  have hok : ((start ∅).run mirroring).attempt (.set sourceCell none)
      = .ok (⟨_, _⟩, [sourceCell, mirrorCell]) := edited_eq_ok_iff.2 ⟨hset, rfl⟩
  obtain ⟨-, -, hmem, hbefore, -⟩ := edit_order ∅ mirroring rfl hok
  exact ⟨_, hok, hmem, hbefore⟩

end Session

end LiveSheet
