import LiveSheet.Proofs.Session.Edits
import LiveSheet.Proofs.Sheet.Loading

namespace LiveSheet

/-!
# Unsaved edits

An edit marks the sheet as changed.  Saving it takes the mark away, and a sheet that is loaded has
none.  An action that fails leaves the mark as it is, with all else.  So the mark tells whether
there is something to save.

* `Action.isEdit` — the actions that edit a cell; all others save or load.
* `Session.SomeSucceeds` — of some actions in a row, one of a kind succeeds.
* `Session.LastStored` — where a run of actions saves or loads for the last time.
* `Session.changed_of_edit`, `Session.changed_of_stored` — what one action does to the mark.
* `Session.changed_iff_of_quiet` — what the mark tells from there on.
* `Session.run_changed` — what it tells after all actions.
-/

/-- Whether an action edits a cell.  The others save the sheet or load another one. -/
def Action.isEdit : Action → Bool
  | .enter _ _ => true
  | .set _ _ => true
  | .loadText _ => false
  | .loadFile _ => false
  | .save _ _ => false

namespace Session

/-- Whether an action succeeds. -/
def Succeeds (s : Session) (a : Action) : Prop := ∃ next order, s.attempt a = .ok (next, order)

/-- Whether some action of a kind succeeds, when actions are carried out one after the other. -/
def SomeSucceeds (s : Session) (kind : Action → Bool) (actions : List Action) : Prop :=
  ∃ before a after, actions = before ++ a :: after ∧ kind a = true ∧ (s.run before).Succeeds a

/-- Of the actions `before ++ after`, the last that saves or loads with success ends `before`.  If
    there is none, then `before` is empty. -/
structure LastStored (s : Session) (before after : List Action) : Prop where
  stored : before = [] ∨
    ∃ earlier a, before = earlier ++ [a] ∧ a.isEdit = false ∧ (s.run earlier).Succeeds a
  quiet : ¬ (s.run before).SomeSucceeds (!·.isEdit) after

variable {s next : Session} {a : Action} {order : List CellName} {kind : Action → Bool}
  {actions : List Action}

/-! ### Runs and their last action -/

/-- A run may be cut anywhere: the second part starts from what the first one leaves. -/
theorem run_append (s : Session) (first rest : List Action) :
    s.run (first ++ rest) = (s.run first).run rest :=
  List.foldl_append

/-- The last action is carried out on what the others leave. -/
theorem run_concat (s : Session) (actions : List Action) (a : Action) :
    s.run (actions ++ [a]) = (s.run actions).perform a :=
  run_append s actions [a]

/-- Where there are no actions, none succeeds. -/
theorem not_someSucceeds_nil : ¬ s.SomeSucceeds kind [] := by
  rintro ⟨before, a, after, h, -⟩
  simp at h

/-- With one action more, that one can be the action that succeeds. -/
theorem someSucceeds_concat : s.SomeSucceeds kind (actions ++ [a]) ↔
    s.SomeSucceeds kind actions ∨ kind a = true ∧ (s.run actions).Succeeds a := by
  constructor
  · rintro ⟨before, b, after, h, hkind, hb⟩
    rcases List.eq_nil_or_concat after with rfl | ⟨after, c, rfl⟩
    · obtain ⟨rfl, hab⟩ := List.append_inj' h rfl
      cases hab
      exact Or.inr ⟨hkind, hb⟩
    · rw [List.concat_eq_append, ← List.cons_append, ← List.append_assoc] at h
      obtain ⟨rfl, -⟩ := List.append_inj' h rfl
      exact Or.inl ⟨before, b, after, rfl, hkind, hb⟩
  · rintro (⟨before, b, after, rfl, hkind, hb⟩ | ⟨hkind, ha⟩)
    · exact ⟨before, b, after ++ [a], by simp, hkind, hb⟩
    · exact ⟨actions, a, [], rfl, hkind, ha⟩

/-! ### What one action does to the mark -/

/-- An action that does not succeed leaves the session as it is. -/
theorem perform_of_not_succeeds (h : ¬ s.Succeeds a) : s.perform a = s := by
  cases ha : s.attempt a with
  | error e => exact perform_of_error ha
  | ok result => exact absurd ⟨_, _, ha⟩ h

/-- Every edit that succeeds marks the sheet. -/
theorem changed_of_edit (ha : a.isEdit = true) (h : s.attempt a = .ok (next, order)) :
    next.sheet.changed = true := by
  have hset : ∃ cell contents, s.sheet.set cell contents = .ok (next.sheet, order) := by
    cases a with
    | enter name input =>
      obtain ⟨cell, contents, -, -, hset⟩ := Sheet.enter_eq_ok_iff.1 (edited_eq_ok_iff.1 h).1
      exact ⟨cell, contents, hset⟩
    | set cell contents => exact ⟨cell, contents, (edited_eq_ok_iff.1 h).1⟩
    | loadText text => cases ha
    | loadFile path => cases ha
    | save path layout => cases ha
  obtain ⟨cell, contents, hset⟩ := hset
  exact Sheet.changed_of_set hset

/-- A sheet that is saved or loaded is not marked. -/
theorem changed_of_stored (ha : a.isEdit = false) (h : s.attempt a = .ok (next, order)) :
    next.sheet.changed = false := by
  -- Both kinds of loads end in a sheet that is read from a text.
  have hjson {text : String} (hread : Sheet.ofJson text = .ok next.sheet) :
      next.sheet.changed = false := by
    obtain ⟨f, -, hfile⟩ := Sheet.ofJson_eq_ok_iff.1 hread
    exact Sheet.changed_of_ofMembers hfile
  cases a with
  | enter name input => cases ha
  | set cell contents => cases ha
  | loadText text => exact hjson (Files.ofJson_of_loadSheet (sheet_of_loaded h))
  | loadFile path =>
    obtain ⟨text, hread⟩ := Files.exists_ofJson_of_openSheet (sheet_of_loaded h)
    exact hjson hread
  | save path layout =>
    simp only [attempt] at h
    split at h
    · cases h
      rfl
    · cases h

/-! ### What the mark tells -/

/-- **From a sheet without the mark on**, as long as nothing is saved or loaded, the mark tells
    whether an edit succeeded, and as long as there is none the sheet is the same. -/
theorem changed_iff_of_quiet (hs : s.sheet.changed = false)
    (hquiet : ¬ s.SomeSucceeds (!·.isEdit) actions) :
    ((s.run actions).sheet.changed = true ↔ s.SomeSucceeds Action.isEdit actions) ∧
      ((s.run actions).sheet.changed = false → (s.run actions).sheet = s.sheet) := by
  induction actions using List.reverseRecOn with
  | nil =>
    have hrun : s.run [] = s := rfl
    rw [hrun, hs]
    exact ⟨iff_of_false Bool.false_ne_true not_someSucceeds_nil, fun _ => rfl⟩
  | append_singleton actions a ih =>
    rw [someSucceeds_concat, not_or] at hquiet
    obtain ⟨hiff, hsame⟩ := ih hquiet.1
    rw [run_concat, someSucceeds_concat]
    by_cases ha : (s.run actions).Succeeds a
    · -- what succeeds is an edit, since nothing is saved or loaded
      have hedit : a.isEdit = true := by
        by_contra hne
        exact hquiet.2 ⟨by simp [hne], ha⟩
      obtain ⟨next, order, hnext⟩ := ha
      have hchanged := changed_of_edit hedit hnext
      rw [perform_of_ok hnext, hchanged]
      exact ⟨iff_of_true rfl (Or.inr ⟨hedit, next, order, hnext⟩), fun h => by cases h⟩
    · rw [perform_of_not_succeeds ha, hiff]
      exact ⟨by simp [ha], hsame⟩

/-- The sheet is not marked where it was stored, nor where it was created. -/
theorem LastStored.changed {files : Files} {before after : List Action}
    (h : LastStored (start files) before after) :
    ((start files).run before).sheet.changed = false := by
  rcases h.stored with rfl | ⟨earlier, a, rfl, ha, next, order, hnext⟩
  · rfl
  · rw [run_concat, perform_of_ok hnext]
    exact changed_of_stored ha hnext

/-- All actions have a last one among them that stores the sheet, or none of them does. -/
theorem exists_lastStored (s : Session) (actions : List Action) :
    ∃ before after, actions = before ++ after ∧ LastStored s before after := by
  induction actions using List.reverseRecOn with
  | nil => exact ⟨[], [], rfl, Or.inl rfl, not_someSucceeds_nil⟩
  | append_singleton actions a ih =>
    by_cases ha : a.isEdit = false ∧ (s.run actions).Succeeds a
    · exact ⟨actions ++ [a], [], (List.append_nil _).symm, Or.inr ⟨actions, a, rfl, ha⟩,
        not_someSucceeds_nil⟩
    · obtain ⟨before, after, rfl, hstored, hquiet⟩ := ih
      refine ⟨before, after ++ [a], List.append_assoc _ _ _, hstored, ?_⟩
      rw [someSucceeds_concat, ← run_append]
      rintro (hsome | ⟨hkind, hsucceeds⟩)
      · exact hquiet hsome
      · exact ha ⟨by simpa using hkind, hsucceeds⟩

/-- Clearing a cell that is absent is an edit that succeeds and leaves all cells as they are. -/
theorem exists_clear_absent {sheet : Sheet} {cell : CellName} (h : sheet.Coherent)
    (habsent : sheet.cells[cell]? = none) : ∃ next order, sheet.set cell none = .ok (next, order) ∧
      next.cells = sheet.cells ∧ next.graph = sheet.graph ∧ next.changed = true := by
  have hnone : ∀ u, u ∉ Sheet.newReferences none := fun u => Std.ExtTreeSet.not_mem_empty
  have hsome : ∃ next order, sheet.set cell none = .ok (next, order) :=
    Sheet.exists_set_of_no_references h.acyclic hnone
  obtain ⟨next, order, hset⟩ := hsome
  have hcontents : ∀ n, next.cells.contents? n = sheet.cells.contents? n := by
    intro n
    rw [Sheet.contents?_set hset]
    by_cases hn : n = cell
    · simp [hn, Cells.contents?, habsent]
    · simp [hn]
  obtain ⟨hcells, hgraph⟩ := (h.set hset).unique h hcontents
  exact ⟨next, order, hset, hcells, hgraph, Sheet.changed_of_set hset⟩

/-- **The mark never hides an unsaved edit.**  After all actions:
    * There is a last action that saves or loads with success, or no action does.  Since then, or
      since the sheet was created, some edit succeeded exactly when the sheet is marked as changed.
      If it is not marked, its cells, their values and the graph are what they were there.
    * An action that fails leaves the mark, the sheet and the files as they are.
    * Clearing an absent cell, by itself or by typing the empty text, succeeds and marks the sheet,
      though its cells and its graph stay the same. -/
theorem run_changed (files : Files) (actions : List Action) :
    let s := (start files).run actions
    (∃ before after, actions = before ++ after ∧ LastStored (start files) before after) ∧
    (∀ before after, actions = before ++ after → LastStored (start files) before after →
      let stored := (start files).run before
      (s.sheet.changed = true ↔ stored.SomeSucceeds Action.isEdit after) ∧
      (s.sheet.changed = false → s.sheet = stored.sheet)) ∧
    (∀ a, ¬ s.Succeeds a → s.perform a = s) ∧
    ∀ cell, s.sheet.cells[cell]? = none → ∃ next order,
      s.attempt (.set cell none) = .ok (next, order) ∧
      (∀ name, CellName.ofText? name = some cell →
        s.attempt (.enter name "") = .ok (next, order)) ∧
      next.sheet.changed = true ∧ next.sheet.cells = s.sheet.cells ∧
      next.sheet.graph = s.sheet.graph := by
  intro s
  refine ⟨exists_lastStored _ actions, fun before after hsplit hlast => ?_,
    fun a => perform_of_not_succeeds, fun cell habsent => ?_⟩
  · -- The run is cut where the sheet was last stored, and the rest stores nothing.
    have hrun : s = ((start files).run before).run after := by
      rw [← run_append, ← hsplit]
    rw [hrun]
    exact changed_iff_of_quiet hlast.changed hlast.quiet
  · obtain ⟨sheet, order, hset, hcells, hgraph, hchanged⟩ :=
      exists_clear_absent (run_coherent files actions) habsent
    have hattempt : s.attempt (.set cell none) = .ok (⟨sheet, s.files⟩, order) :=
      edited_eq_ok_iff.2 ⟨hset, rfl⟩
    refine ⟨_, order, hattempt, fun name hname => ?_, hchanged, hcells, hgraph⟩
    rw [← hattempt, attempt, attempt, Sheet.enter, hname]
    rfl

end Session

end LiveSheet
