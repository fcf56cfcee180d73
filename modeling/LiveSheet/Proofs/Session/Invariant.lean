import LiveSheet.Proofs.Sheet.Coherence
import LiveSheet.Session

namespace LiveSheet

open Relation

/-!
# What holds of the sheet in every session

A session changes its sheet by edits, by saving it and by loading another one, and a sheet is loaded
by edits of the empty sheet.  So what holds of the empty sheet and is kept by edits and by saving
holds after all actions.

* `Sheet.enter_eq_ok_iff` — to type a text is to make an edit.
* `Contents.IsTyped` — the contents that typed texts stand for.
* `Session.run_induction` — the induction over all that a session does.
* `Session.run_coherent` — the sheet of a session is coherent.
* `Session.run_upToDate` — what this says about its graph and its values.
-/

/-- Contents, or none, that some text stands for when it is typed. -/
def Contents.IsTyped (contents : Option Contents) : Prop :=
  ∃ input, Contents.ofInput input = .ok contents

namespace Sheet

variable {s next : Sheet} {name input : String} {order : List CellName}

/-- A typed text that is accepted is an edit. -/
theorem enter_eq_ok_iff : s.enter name input = .ok (next, order) ↔
    ∃ cell contents, CellName.ofText? name = some cell ∧ Contents.ofInput input = .ok contents ∧
      s.set cell contents = .ok (next, order) := by
  unfold enter
  cases CellName.ofText? name with
  | none => simp
  | some cell =>
    cases Contents.ofInput input with
    | error fault => simp
    | ok contents => simp

/-- Typing texts one after the other: the first is accepted, and so are the others after it. -/
theorem enterAll_cons_eq_ok_iff {member : String × String} {rest : List (String × String)} :
    s.enterAll (member :: rest) = .ok next ↔
      ∃ mid order, s.enter member.1 member.2 = .ok (mid, order) ∧ mid.enterAll rest = .ok next := by
  rw [enterAll]
  cases s.enter member.1 member.2 with
  | error e => simp
  | ok result =>
    obtain ⟨mid, order⟩ := result
    simp

/-! ### Induction over edits -/

section Induction

variable {P : Sheet → Prop}
  (hset : ∀ s cell contents next order, P s → Contents.IsTyped contents →
    s.set cell contents = .ok (next, order) → P next)

include hset

/-- What every edit with typed contents keeps is kept by typing texts. -/
theorem enterAll_induction {members : List (String × String)} (h : P s)
    (hall : s.enterAll members = .ok next) : P next := by
  induction members generalizing s with
  | nil =>
    cases hall
    exact h
  | cons member rest ih =>
    obtain ⟨t, order, henter, hafter⟩ := enterAll_cons_eq_ok_iff.1 hall
    obtain ⟨cell, contents, -, hinput, hedit⟩ := enter_eq_ok_iff.1 henter
    exact ih (hset s cell contents t order h ⟨_, hinput⟩ hedit) hafter

/-- A sheet that is loaded is made by edits of the empty sheet. -/
theorem ofFile_induction (hempty : P empty) (hsaved : ∀ s, P s → P s.saved) {f : SheetFile}
    (hfile : ofFile f = .ok s) : P s := by
  unfold ofFile at hfile
  split at hfile
  · cases hfile
  · cases hall : empty.enterAll f.members with
    | error e =>
      rw [hall] at hfile
      cases hfile
    | ok t =>
      rw [hall] at hfile
      cases hfile
      exact hsaved t (enterAll_induction hset hempty hall)

/-- What edits and saving keep holds of a sheet that is loaded from a text. -/
theorem ofJson_induction (hempty : P empty) (hsaved : ∀ s, P s → P s.saved) {text : String}
    (hjson : ofJson text = .ok s) : P s := by
  unfold ofJson at hjson
  split at hjson
  · exact ofFile_induction hset hempty hsaved hjson
  · cases hjson

end Induction

end Sheet

/-- Text or file, what is loaded is read as a JSON text. -/
theorem Files.ofJson_of_loadSheet {text : String} {s : Sheet} (h : loadSheet text = .ok s) :
    Sheet.ofJson text = .ok s := by
  unfold loadSheet at h
  cases hjson : Sheet.ofJson text with
  | error e =>
    rw [hjson] at h
    cases h
  | ok t =>
    rw [hjson] at h
    cases h
    rfl

/-- A sheet that is opened is loaded from the text in its file. -/
theorem Files.exists_ofJson_of_openSheet {fs : Files} {path : String} {s : Sheet}
    (h : fs.openSheet path = .ok s) : ∃ text, Sheet.ofJson text = .ok s := by
  unfold openSheet at h
  split at h
  · cases h
  · split at h
    · cases h
    · split at h
      · cases h
      · next text _ => exact ⟨text, ofJson_of_loadSheet h⟩

namespace Session

variable {s next : Session} {order : List CellName}

/-! ### What an action does -/

/-- The session that an edit gives, if it succeeds, has the edited sheet and the same files. -/
theorem edited_eq_ok_iff {outcome : Except EditError (Sheet × List CellName)} :
    s.edited outcome = .ok (next, order) ↔
      outcome = .ok (next.sheet, order) ∧ next.files = s.files := by
  obtain ⟨sheet, files⟩ := next
  cases outcome with
  | error e => simp [edited]
  | ok result =>
    obtain ⟨sheet', order'⟩ := result
    simp only [edited, Except.ok.injEq, Prod.mk.injEq, Session.mk.injEq]
    constructor
    · rintro ⟨⟨rfl, rfl⟩, rfl⟩
      exact ⟨⟨rfl, rfl⟩, rfl⟩
    · rintro ⟨⟨rfl, rfl⟩, rfl⟩
      exact ⟨⟨rfl, rfl⟩, rfl⟩

/-- An edit that fails gives its error. -/
theorem edited_eq_error_iff {outcome : Except EditError (Sheet × List CellName)} {e : EditError} :
    s.edited outcome = .error (.edit e) ↔ outcome = .error e := by
  cases outcome with
  | error e' => simp [edited]
  | ok result => simp [edited]

/-- The session that a load gives has the loaded sheet. -/
theorem sheet_of_loaded {outcome : Except StorageError Sheet}
    (h : s.loaded outcome = .ok (next, order)) : outcome = .ok next.sheet := by
  cases outcome with
  | error e => cases h
  | ok sheet =>
    cases h
    rfl

/-- An action that succeeds edits the sheet, loads another one or saves it.  The contents of an edit
    were typed, or are the ones given. -/
theorem attempt_cases {a : Action} (h : s.attempt a = .ok (next, order)) :
    (∃ cell contents, (Contents.IsTyped contents ∨ a = .set cell contents) ∧
        s.sheet.set cell contents = .ok (next.sheet, order)) ∨
      (∃ text, Sheet.ofJson text = .ok next.sheet) ∨ next.sheet = s.sheet.saved := by
  cases a with
  | enter name input =>
    -- Typing a text is setting the contents that it stands for.
    obtain ⟨cell, contents, -, hinput, hset⟩ := Sheet.enter_eq_ok_iff.1 (edited_eq_ok_iff.1 h).1
    exact Or.inl ⟨cell, contents, Or.inl ⟨input, hinput⟩, hset⟩
  | set cell contents =>
    exact Or.inl ⟨cell, contents, Or.inr rfl, (edited_eq_ok_iff.1 h).1⟩
  | loadText text =>
    exact Or.inr (Or.inl ⟨text, Files.ofJson_of_loadSheet (sheet_of_loaded h)⟩)
  | loadFile path =>
    exact Or.inr (Or.inl (Files.exists_ofJson_of_openSheet (sheet_of_loaded h)))
  | save path layout =>
    cases hsave : s.files.saveSheet s.sheet path layout with
    | error e =>
      simp only [attempt, hsave] at h
      cases h
    | ok files =>
      simp only [attempt, hsave] at h
      cases h
      exact Or.inr (Or.inr rfl)

/-- An action that succeeds gives its result. -/
theorem perform_of_ok {a : Action} (h : s.attempt a = .ok (next, order)) : s.perform a = next := by
  rw [perform, h]

/-- An action that fails leaves the sheet and the files as they are. -/
theorem perform_of_error {a : Action} {e : SheetError} (h : s.attempt a = .error e) :
    s.perform a = s := by
  rw [perform, h]

/-- **Induction over sessions.**  What holds of the empty sheet and is kept by saving and by every
    edit, with typed contents or with those that an action gives, holds of the sheet after all
    actions. -/
theorem run_induction_of {P : Sheet → Prop} {Q : Option Contents → Prop} (hempty : P Sheet.empty)
    (hset : ∀ s cell contents next order, P s → Q contents →
      s.set cell contents = .ok (next, order) → P next)
    (hsaved : ∀ s, P s → P s.saved) (htyped : ∀ contents, Contents.IsTyped contents → Q contents)
    (files : Files) {actions : List Action}
    (hgiven : ∀ cell contents, Action.set cell contents ∈ actions → Q contents) :
    P ((start files).run actions).sheet := by
  -- the run is a fold, so the session it starts from has to vary
  have hrun : ∀ s : Session, P s.sheet → P (s.run actions).sheet := by
    intro s hs
    induction actions generalizing s with
    | nil => exact hs
    | cons a rest ih =>
      apply ih (fun cell contents h => hgiven cell contents (List.mem_cons_of_mem a h))
        (s.perform a)
      cases ha : s.attempt a with
      | error e =>
        rw [perform_of_error ha]
        exact hs
      | ok result =>
        rw [perform_of_ok ha]
        rcases attempt_cases ha with ⟨cell, contents, hcontents, hedit⟩ | ⟨text, hjson⟩ | hsave
        · refine hset s.sheet cell contents _ _ hs ?_ hedit
          rcases hcontents with hinput | rfl
          · exact htyped contents hinput
          · exact hgiven cell contents List.mem_cons_self
        · refine Sheet.ofJson_induction ?_ hempty hsaved hjson
          exact fun s cell contents next order h hinput => hset s cell contents next order h
            (htyped contents hinput)
        · rw [hsave]
          exact hsaved s.sheet hs
  exact hrun (start files) hempty

/-- What holds of the empty sheet and is kept by every edit and by saving holds of the sheet after
    all actions. -/
theorem run_induction {P : Sheet → Prop} (hempty : P Sheet.empty)
    (hset : ∀ s cell contents next order, P s → s.set cell contents = .ok (next, order) → P next)
    (hsaved : ∀ s, P s → P s.saved) (files : Files) (actions : List Action) :
    P ((start files).run actions).sheet :=
  run_induction_of (Q := fun _ => True) hempty
    (fun s cell contents next order h _ hedit => hset s cell contents next order h hedit) hsaved
    (fun _ _ => trivial) files fun _ _ _ => trivial

/-! ### The sheet of a session is coherent -/

/-- **The sheet of a session is coherent after all actions**, by induction over them. -/
theorem run_coherent (files : Files) (actions : List Action) :
    ((start files).run actions).sheet.Coherent :=
  run_induction Sheet.coherent_empty (fun _ _ _ _ _ h hset => h.set hset) (fun _ h => h.saved)
    files actions

/-- **The graph and the values of a sheet are up to date after all actions.**
    * There is an edge from `u` to `n` exactly when `n` holds a formula that refers to `u`, and the
      cells listed as direct dependents of `u` are those whose formula mentions it, each once.
    * No path leads from a cell back to it.
    * A number or a text is shown as it is, and a formula shows the result of its evaluation with
      the numbers that the sheet shows now, which is never a text. -/
theorem run_upToDate (files : Files) (actions : List Action) :
    let s := ((start files).run actions).sheet
    (∀ u n, (s.graph.contains u n = true ↔ ∃ f, s.cells.formula? n = some f ∧ u ∈ f.references) ∧
      (u ∈ s.graph.dependees n ↔ ∃ f, s.cells.formula? n = some f ∧ u ∈ f.references) ∧
      (n ∈ s.directDependents u ↔ ∃ f, s.contentsOf n = .formula f ∧ Token.cell u ∈ f.tokens)) ∧
    (∀ u, (s.directDependents u).Nodup) ∧
    (∀ n, ¬ TransGen (fun u v => s.graph.contains u v = true) n n) ∧
    ∀ (n : CellName) (cell : Cell), s.cells[n]? = some cell →
      match cell.contents with
      | .number v => cell.value = .number v
      | .text t => cell.value = .text t
      | .formula f =>
        cell.value = Value.ofResult
            (f.evaluate ieeeArithmetic fun u => (s.valueOf u).number?).result ∧
          ∀ t, cell.value ≠ .text t := by
  intro s
  -- Everything is read off the invariant of the sheet.
  have h : s.Coherent := run_coherent files actions
  refine ⟨fun u n => ⟨?_, ?_, ?_⟩, s.nodup_directDependents, ?_, ?_⟩
  · rw [← DependencyGraph.hasEdge_iff_contains, h.hasEdge_iff, Cells.refers_iff]
  · rw [h.mem_dependees_iff, h.hasEdge_iff, Cells.refers_iff]
  · rw [Sheet.mem_directDependents_iff, h.hasEdge_iff, Cells.refers_iff]
    simp only [Sheet.contentsOf_eq_formula_iff, Formula.mem_references, Formula.mem_mentions]
  · have hgraph : (fun u v => s.graph.contains u v = true) = s.graph.HasEdge :=
      funext fun u => funext fun v => propext DependencyGraph.hasEdge_iff_contains.symm
    rw [hgraph]
    exact h.acyclic
  · intro n cell hcell
    have hshown := h.consistent n cell hcell
    rw [← s.number?_valueOf] at hshown
    cases hcontents : cell.contents with
    | number v => rw [hshown, hcontents]; rfl
    | text t => rw [hshown, hcontents]; rfl
    | formula f =>
      rw [hcontents] at hshown
      refine ⟨hshown, fun t => ?_⟩
      rw [hshown]
      exact Value.ofResult_ne_text

end Session

end LiveSheet
