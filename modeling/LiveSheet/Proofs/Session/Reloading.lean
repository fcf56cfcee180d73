import LiveSheet.Proofs.Sheet.Reloading

namespace LiveSheet

/-!
# Every session's sheet can be saved and loaded

* `Action.IsTyped` — the actions that give cells only contents that texts stand for.
* `Session.run_typed` — after such actions all contents were typed.
* `Session.reload` — the sheet is then loaded from its text.
* `Session.typed_again` — the contents that survive this, whatever actions gave them.
-/

/-- Whether an action gives cells only contents that texts stand for. -/
def Action.IsTyped : Action → Prop
  | .set _ _ => False
  | _ => True

instance : DecidablePred Action.IsTyped
  | .set _ _ => .isFalse id
  | .enter _ _ => .isTrue trivial
  | .loadText _ => .isTrue trivial
  | .loadFile _ => .isTrue trivial
  | .save _ _ => .isTrue trivial

namespace Session

/-- If no action gives contents that were not typed, then all contents of the sheet were typed. -/
theorem run_typed (files : Files) {actions : List Action} (h : ∀ a ∈ actions, a.IsTyped) :
    ((start files).run actions).sheet.Typed :=
  run_induction_of (Q := Contents.IsTyped) Sheet.typed_empty
    (fun _ _ _ _ _ hs hcontents hset => hs.set hcontents hset) (fun _ hs => hs)
    (fun _ hcontents => hcontents) files fun _ _ hmem => (h _ hmem).elim

/-- **A sheet is loaded from the text it is saved as.**  After any actions that type texts, load
    sheets and save them, and in either layout, the sheet's text is loaded as a sheet that
    * has the same cells and in them equal contents, numbers being compared as numbers,
    * has the same graph, and so for each cell the same direct dependents,
    * shows the same values, but for the sign of a zero,
    * and has no unsaved edits. -/
theorem reload (files : Files) {actions : List Action} (h : ∀ a ∈ actions, a.IsTyped)
    (layout : Layout) :
    let s := ((start files).run actions).sheet
    ∃ t, Sheet.ofJson (s.toJson layout) = .ok t ∧
      t.names = s.names ∧ (∀ n, (t.contentsOf n).same (s.contentsOf n) = true) ∧
      t.graph = s.graph ∧ (∀ n, t.directDependents n = s.directDependents n) ∧
      (∀ n, (t.valueOf n).UpToZeroSign (s.valueOf n)) ∧ t.changed = false := by
  intro s
  have hs : s.Coherent := run_coherent files actions
  have htyped : s.Typed := run_typed files h
  obtain ⟨t, hfile, ht, hchanged, hcontents⟩ := Sheet.exists_ofFile_toFile hs htyped
  -- The graph is determined by the references, which a reload does not change.
  have hgraph : t.graph = s.graph := ht.graph_unique hs fun u v => by
    rw [Cells.Refers, hcontents, Sheet.newReferences_reloaded, Cells.Refers]
  refine ⟨t, ?_, Sheet.names_of_reloaded hcontents, Sheet.same_contentsOf hcontents htyped, hgraph,
    fun n => ?_, hs.valueOf_upToZeroSign ht hcontents, hchanged⟩
  · rw [Sheet.ofJson, Sheet.toJson, SheetFile.read?_write]
    exact hfile
  · rw [Sheet.directDependents, Sheet.directDependents, hgraph]

/-! ### A sheet with a negative zero -/

/-- The session types a formula before the cell that it refers to, and there a negative zero. -/
def typing : List Action := [.enter "a1" "=B1*2", .enter "b1" "-0"]

/-- The sheet with `=B1*2` in `A1` and a negative zero in `B1`, typed in this order, is loaded from
    its pretty text: the formula comes first in the file too, and the zero loses its sign. -/
theorem reload_typing : (∀ a ∈ typing, a.IsTyped) ∧
    ∃ t, Sheet.ofJson (((start ∅).run typing).sheet.toJson .pretty) = .ok t ∧
      t.graph = ((start ∅).run typing).sheet.graph ∧ t.changed = false := by
  have htyped : ∀ a ∈ typing, a.IsTyped := by decide
  obtain ⟨t, hload, -, -, hgraph, -, -, hchanged⟩ := reload ∅ htyped .pretty
  exact ⟨htyped, t, hload, hgraph, hchanged⟩

/-! ### Contents of any kind -/

/-- **Which contents survive as text.**
    * Contents are typed again from the text that stands for them, numbers being compared as
      numbers, exactly when they are a formula, a finite number, or a text that is not empty, does
      not start with an equals sign and, without blank ends, is not read as a finite number.
    * All contents that are typed are of that kind.
    * So a sheet can be loaded from its own text if all its contents are of that kind, whatever
      actions gave them; and whenever it is loaded, exactly the contents of that kind are the same
      again. -/
theorem typed_again (files : Files) :
    (∀ c : Contents, (∃ d, Contents.ofInput c.toInput = .ok (some d) ∧ d.same c = true) ↔
      c.Typable) ∧
    (∀ input c, Contents.ofInput input = .ok (some c) → c.Typable) ∧
    ∀ actions layout,
      let s := ((start files).run actions).sheet
      ((∀ n c, s.cells.contents? n = some c → c.Typable) →
        ∃ t, Sheet.ofJson (s.toJson layout) = .ok t) ∧
      ∀ t, Sheet.ofJson (s.toJson layout) = .ok t → ∀ n c, s.cells.contents? n = some c →
        ((∃ d, t.cells.contents? n = some d ∧ d.same c = true) ↔ c.Typable) := by
  refine ⟨fun c => Contents.exists_same_iff_typable, fun input c => Contents.typable_of_ofInput,
    fun actions layout => ⟨fun htypable => ?_, fun t hload n c hc => ?_⟩⟩
  · have htyped : Sheet.Typed _ := fun n c hc =>
      Contents.exists_ofInput_of_typable (htypable n c hc)
    obtain ⟨t, ht, -⟩ := Sheet.exists_ofJson_toJson (run_coherent files actions) htyped layout
    exact ⟨t, ht⟩
  · rw [← Contents.exists_same_iff_typable]
    exact exists_congr fun d => and_congr_left' (Sheet.contents?_ofJson_toJson hload hc)

end Session

end LiveSheet
