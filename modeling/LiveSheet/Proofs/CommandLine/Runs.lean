import LiveSheet.CommandLine.Run
import LiveSheet.Proofs.CommandLine.Arguments
import LiveSheet.Proofs.Files.Writing
import LiveSheet.Proofs.Sheet.Reloading
import Mathlib.Data.List.Forall2

namespace LiveSheet

/-!
# What a run does

* `Assigns`, `Sheet.EditedBy` — what assignments say and where a list of them leads.
* `Sheet.Answers` — the line that a query is answered with.
* `Options.execute_eq_ok_iff` — what a run that ends well has done, step by step.
* `Options.LeadsTo`, `Options.Leaves` — the sheet that a run ends with, and the files after it.
* `commandLine_cases` — how a run ends.
* `commandLine_allOrNothing` — a run changes one file or none.
-/

/-- Wording an error differently changes no result. -/
theorem mapError_eq_ok_iff {ε ε' α : Type} {f : ε → ε'} {x : Except ε α} {v : α} :
    x.mapError f = .ok v ↔ x = .ok v := by
  cases x <;> simp [Except.mapError]

/-! ### Assignments -/

/-- An assignment names a cell before its first equals sign, with or without blank ends, and gives
    the text after it. -/
def Assigns (assignment name input : String) : Prop :=
  ∃ before, assignment.toList = before ++ '=' :: input.toList ∧ '=' ∉ before ∧
    name = String.ofList (trim before)

/-- A text is cut at its first equals sign, and only there. -/
theorem splitAssignment?_eq_some_iff {assignment name input : String} :
    splitAssignment? assignment = some (name, input) ↔ Assigns assignment name input := by
  unfold splitAssignment? Assigns
  constructor
  · intro h
    split at h
    · cases h
    · next c rest hdrop =>
      cases h
      have hsplit := List.takeWhile_append_dropWhile (p := (· != '=')) (l := assignment.toList)
      -- what is left starts where the test fails
      have hc : c = '=' := by
        have hhead := List.head?_dropWhile_not (· != '=') assignment.toList
        rw [hdrop] at hhead
        simpa using hhead
      subst hc
      refine ⟨assignment.toList.takeWhile (· != '='), ?_, fun hmem => ?_, rfl⟩
      · rw [String.toList_ofList, ← hdrop, hsplit]
      · have hne := List.mem_takeWhile_imp hmem
        simp at hne
  · rintro ⟨before, htext, hnone, rfl⟩
    have hbefore : ∀ c ∈ before, (c != '=') = true := fun c hc =>
      bne_iff_ne.2 fun heq => hnone (heq ▸ hc)
    rw [htext, List.dropWhile_append_of_pos hbefore, List.takeWhile_append_of_pos hbefore]
    simp

namespace Sheet

/-- A list of assignments leads from a sheet to another, each typed into the sheet that the ones
    before it gave. -/
inductive EditedBy : Sheet → List String → Sheet → Prop where
  | nil {s : Sheet} : EditedBy s [] s
  | cons {s next last : Sheet} {assignment name input : String} {order : List CellName}
      {rest : List String} (hassign : Assigns assignment name input)
      (henter : s.enter name input = .ok (next, order)) (hrest : EditedBy next rest last) :
      EditedBy s (assignment :: rest) last

variable {s next last : Sheet} {assignment : String} {sets : List String} {order : List CellName}

/-- An assignment is made when it can be cut and its text can be typed into the cell it names. -/
theorem assign_eq_ok_iff : s.assign assignment = .ok (next, order) ↔
    ∃ name input, Assigns assignment name input ∧ s.enter name input = .ok (next, order) := by
  simp only [← splitAssignment?_eq_some_iff]
  unfold assign
  cases splitAssignment? assignment with
  | none => simp
  | some found =>
    obtain ⟨name, input⟩ := found
    simp [mapError_eq_ok_iff]

/-- **Edits in order.**  The assignments are made exactly when each of them can be typed after the
    ones before it. -/
theorem assignAll_eq_ok_iff : (s.assignAll sets).2 = .ok last ↔ s.EditedBy sets last := by
  -- each assignment starts from the sheet that the ones before it gave
  induction sets generalizing s with
  | nil =>
    constructor
    · intro h
      cases h
      exact .nil
    · intro h
      cases h
      rfl
  | cons assignment rest ih =>
    unfold assignAll
    constructor
    · intro h
      split at h
      · cases h
      · next next order hassign =>
        obtain ⟨name, input, hassigns, henter⟩ := assign_eq_ok_iff.1 hassign
        exact .cons hassigns henter (ih.1 h)
    · intro h
      cases h with
      | cons hassigns henter hrest =>
        rw [assign_eq_ok_iff.2 ⟨_, _, hassigns, henter⟩]
        exact ih.2 hrest

/-- Every edit is reported. -/
theorem length_assignAll (h : (s.assignAll sets).2 = .ok last) :
    (s.assignAll sets).1.length = sets.length := by
  induction sets generalizing s with
  | nil => rfl
  | cons assignment rest ih =>
    unfold assignAll at h ⊢
    split at h
    · cases h
    · exact congrArg (· + 1) (ih h)

/-- Typing a text marks the sheet as edited. -/
theorem changed_of_enter {name input : String} (h : s.enter name input = .ok (next, order)) :
    next.changed = true := by
  obtain ⟨cell, contents, -, -, hset⟩ := enter_eq_ok_iff.1 h
  exact changed_of_set hset

/-- A sheet is marked as edited when there was an edit. -/
theorem EditedBy.changed_iff (h : s.EditedBy sets last) (hs : s.changed = false) :
    last.changed = true ↔ sets ≠ [] := by
  have hkept : ∀ {s last : Sheet} {sets : List String}, s.EditedBy sets last →
      s.changed = true → last.changed = true := by
    intro s last sets h hs
    induction h with
    | nil => exact hs
    | cons _ henter _ ih => exact ih (changed_of_enter henter)
  cases h with
  | nil => simp [hs]
  | cons _ henter hrest => simp [hkept hrest (changed_of_enter henter)]

/-! ### Queries -/

/-- The line that shows the value of the cell that a text names. -/
def Answers (s : Sheet) (given line : String) : Prop :=
  ∃ n, CellName.ofText? given = some n ∧ line = n.text ++ ": " ++ (s.valueOf n).display

/-- A cell that is named is answered with its value. -/
theorem text_value {given : String} {n : CellName} (h : CellName.ofText? given = some n)
    (s : Sheet) : s.Answers given (Line.value given (s.valueOf n)).text := by
  refine ⟨n, h, ?_⟩
  rw [Line.text, CellName.text_of_ofText? h]

/-- **Queries in order.**  When all of them name cells, each is answered with the value that the
    sheet shows there, and otherwise the answers end with an error. -/
theorem answer_eq_ok_iff {gets : List String} : (s.answer gets).2 = .ok () ↔
    List.Forall₂ s.Answers gets ((s.answer gets).1.map Line.text) := by
  induction gets with
  | nil => exact iff_of_true rfl .nil
  | cons given rest ih =>
    unfold answer
    cases h : CellName.ofText? given with
    | none => simp
    | some n =>
      simp only [List.map_cons, List.forall₂_cons]
      rw [and_iff_right (text_value h s)]
      exact ih

end Sheet

/-! ### Runs -/

namespace Options

variable {o : Options} {settings : Settings} {fs : Files} {start last : Sheet} {finish : Finish}
  {lines : List Line}

/-- A run starts from the sheet in its file, or from the empty one if there is no such file. -/
def StartsFrom (o : Options) (fs : Files) (start : Sheet) : Prop :=
  (∃ path, o.file = some path ∧ fs.exists? path = true ∧ fs.openSheet path = .ok start) ∨
    (∀ path, o.file = some path → fs.exists? path = false) ∧ start = Sheet.empty

/-- A run has a sheet to start from when its file can be opened or does not exist. -/
theorem startSheet_eq_ok_iff : o.startSheet fs = .ok start ↔ o.StartsFrom fs start := by
  unfold startSheet StartsFrom
  cases ho : o.file with
  | none =>
    simp only [Except.ok.injEq, reduceCtorEq, false_and, exists_const, IsEmpty.forall_iff,
      implies_true, true_and, false_or]
    exact eq_comm
  | some path =>
    cases hexists : fs.exists? path with
    | false =>
      simp only [hexists, Bool.false_eq_true, ↓reduceIte, Except.ok.injEq, Option.some.injEq,
        exists_eq_left', false_and, forall_eq', true_and, false_or]
      exact eq_comm
    | true => simp [hexists, mapError_eq_ok_iff]

/-- A run ends with the files as they are when it has no path to save to, and else with the sheet
    written there. -/
theorem finish_eq_ok_iff : o.finish settings fs last = .ok finish ↔
    finish.saved = o.target last ∧ match o.target last with
      | none => finish.files = fs
      | some path =>
        fs.writeText path (last.toJson (Layout.ofPretty settings.pretty)) = .ok finish.files := by
  obtain ⟨files, saved⟩ := finish
  unfold Options.finish
  cases o.target last with
  | none => simp [eq_comm, and_comm]
  | some path =>
    simp only [Files.saveSheet]
    cases fs.writeText path (last.toJson (Layout.ofPretty settings.pretty)) with
    | error e => simp [Except.mapError]
    | ok files' => simp [Except.mapError, eq_comm, and_comm]

/-- **What a run that ends well has done**, step by step: it has a sheet to start from, makes all
    edits, answers all queries and saves. -/
theorem execute_eq_ok_iff : o.execute settings fs = (lines, .ok finish) ↔
    ∃ start last, o.startSheet fs = .ok start ∧ (start.assignAll o.sets).2 = .ok last ∧
      (last.answer o.gets).2 = .ok () ∧ o.finish settings fs last = .ok finish ∧
      lines = reportLines settings (start.assignAll o.sets).1 ++ (last.answer o.gets).1
        ++ (if o.print then last.listing else []) := by
  unfold execute
  -- the first step that fails ends the run, so all of them went well
  cases o.startSheet fs with
  | error e => simp
  | ok start =>
    simp only [Except.ok.injEq, exists_eq_left', exists_and_left]
    cases hedits : (start.assignAll o.sets).2 with
    | error e => simp
    | ok last =>
      simp only [Except.ok.injEq, exists_eq_left']
      cases hanswers : (last.answer o.gets).2 with
      | error e => simp
      | ok done =>
        simp only [List.append_assoc, Prod.mk.injEq, true_and]
        exact ⟨fun h => ⟨h.2, h.1.symm⟩, fun h => ⟨h.2.symm, h.1⟩⟩

/-! ### What a run leaves -/

/-- The sheet that a run ends with: the assignments are made one after the other, from the sheet
    that the run starts from. -/
def LeadsTo (o : Options) (fs : Files) (last : Sheet) : Prop :=
  ∃ start, o.StartsFrom fs start ∧ start.EditedBy o.sets last

/-- The path that a run saves to: the output file if one is named, and else the sheet file if there
    are edits. -/
def savesTo (o : Options) : Option String :=
  o.output.or (if o.sets = [] then none else o.file)

/-- The files after a run: the one that it saves to has the text of the sheet, and all others are as
    they were. -/
def Leaves (o : Options) (settings : Settings) (fs : Files) (last : Sheet) (left : Files) : Prop :=
  match o.savesTo with
  | none => left = fs
  | some path => fs.OnlyWritten path (last.toJson (Layout.ofPretty settings.pretty)) left

/-- No sheet that a run starts from is marked as edited. -/
theorem StartsFrom.changed (h : o.StartsFrom fs start) : start.changed = false := by
  obtain ⟨path, -, -, hopen⟩ | ⟨-, rfl⟩ := h
  · obtain ⟨text, hjson⟩ := Files.exists_ofJson_of_openSheet hopen
    obtain ⟨f, -, hfile⟩ := Sheet.ofJson_eq_ok_iff.1 hjson
    exact Sheet.changed_of_ofMembers hfile
  · rfl

/-- Whether a run saves, and where, can be told from its options. -/
theorem LeadsTo.target (h : o.LeadsTo fs last) : o.target last = o.savesTo := by
  obtain ⟨start, hstart, hedits⟩ := h
  have hchanged := hedits.changed_iff hstart.changed
  unfold Options.target savesTo
  cases o.output with
  | some path => rfl
  | none =>
    by_cases hsets : o.sets = []
    · have hsame : last.changed = false := by simpa [hsets] using hchanged
      cases o.file <;> simp [hsets, hsame]
    · cases o.file <;> simp [hsets, hchanged.2 hsets]

/-- The end of a run leaves the sheet where it can be told from the options. -/
theorem LeadsTo.leaves (h : o.LeadsTo fs last) (hfinish : o.finish settings fs last = .ok finish) :
    o.Leaves settings fs last finish.files := by
  obtain ⟨-, hfiles⟩ := finish_eq_ok_iff.1 hfinish
  rw [h.target] at hfiles
  unfold Leaves
  split
  · next hnone => simpa only [hnone] using hfiles
  · next path hpath =>
    simp only [hpath] at hfiles
    exact Files.onlyWritten_of_writeText hfiles

end Options

/-! ### Runs from arguments -/

/-- The help text is among the messages. -/
def Report.ShowsHelp (r : Report) : Prop := ∀ line ∈ usage, line ∈ r.messages

section Report

variable {fs : Files} {arguments : List String} {o : Options} {lines : List Line} {finish : Finish}

/-- The report of a run that ends well. -/
theorem commandLine_of_execute (hread : Options.read arguments = .ok o)
    (hrun : o.execute (o.settings fs).1 fs = (lines, .ok finish)) :
    commandLine fs arguments = ⟨0, lines.map Line.text,
      ((o.settings fs).2.map fun w => "Warning: " ++ w.message) ++
        (finish.saved.map fun path => "Saved to " ++ path).toList, finish.files, finish.saved⟩ := by
  simp only [commandLine, hread, hrun]

/-- A run whose arguments give options ends well when the exit code is zero. -/
theorem exists_execute_of_code (hread : Options.read arguments = .ok o)
    (hcode : (commandLine fs arguments).code = 0) :
    ∃ lines finish, o.execute (o.settings fs).1 fs = (lines, .ok finish) := by
  cases hrun : o.execute (o.settings fs).1 fs with
  | mk lines outcome =>
    cases outcome with
    | ok finish => exact ⟨lines, finish, rfl⟩
    | error e => simp [commandLine, hread, hrun] at hcode

/-- A run that ends well shows warnings and where it saved, and no help. -/
theorem not_showsHelp_of_execute (hread : Options.read arguments = .ok o)
    (hrun : o.execute (o.settings fs).1 fs = (lines, .ok finish)) :
    ¬ (commandLine fs arguments).ShowsHelp := by
  intro hhelp
  have hfirst := hhelp "Usage: cellgraph [OPTIONS] [FILE]" List.mem_cons_self
  rw [commandLine_of_execute hread hrun] at hfirst
  -- already the first letters differ
  rcases List.mem_append.1 hfirst with hwarning | hsaved
  · obtain ⟨w, -, hw⟩ := List.mem_map.1 hwarning
    have hletter := congrArg (fun s => s.toList.head?) hw
    simp at hletter
  · obtain ⟨path, -, hpath⟩ := Option.map_eq_some_iff.1 (Option.mem_toList.1 hsaved)
    have hletter := congrArg (fun s => s.toList.head?) hpath
    simp at hletter

/-- **How a run ends.**  It changes no file, and fails or shows the help text, or else its arguments
    give options and the run with these ends well. -/
theorem commandLine_cases (fs : Files) (arguments : List String) :
    ((commandLine fs arguments).files = fs ∧
        ((commandLine fs arguments).code ≠ 0 ∨ (commandLine fs arguments).ShowsHelp)) ∨
      ∃ o lines finish, Options.read arguments = .ok o ∧
        o.execute (o.settings fs).1 fs = (lines, .ok finish) := by
  cases hread : Options.read arguments with
  | error stop =>
    cases stop with
    | help => exact Or.inl (by simp [commandLine, hread, Stop.report, Report.ShowsHelp])
    | wrong e => exact Or.inl (by simp [commandLine, hread, Stop.report])
  | ok o =>
    cases hrun : o.execute (o.settings fs).1 fs with
    | mk lines outcome =>
      cases outcome with
      | error e => exact Or.inl (by simp [commandLine, hread, hrun])
      | ok finish => exact Or.inr ⟨o, lines, finish, rfl, hrun⟩

/-- **A run changes one file or none.**  If it fails or shows the help text, no file has changed.
    If it ends well, its arguments are cut into options with their values, and it has
    * made the assignments in order, from the sheet in the file or from the empty one,
    * left the text of that sheet in the one file that it saves to, and all others as they were,
    * answered each query with the value in that sheet, wherever the query stood. -/
theorem commandLine_allOrNothing (fs : Files) (arguments : List String) :
    let r := commandLine fs arguments
    (r.code ≠ 0 ∨ r.ShowsHelp → r.files = fs) ∧
      (r.code = 0 → ¬ r.ShowsHelp → ∃ parts last, Options.MadeUpOf arguments parts ∧
        let o := Options.ofParts parts
        let settings := (o.settings fs).1
        o.LeadsTo fs last ∧ o.Leaves settings fs last r.files ∧
          ∃ orders answers, orders.length = o.sets.length ∧
            List.Forall₂ last.Answers o.gets answers ∧
            r.output = (reportLines settings orders).map Line.text ++ answers ++
              (if o.print then last.listing else []).map Line.text) := by
  intro r
  rcases commandLine_cases fs arguments with ⟨hfiles, hend⟩ | ⟨o, lines, finish, hread, hrun⟩
  · -- it failed or showed the help text, and touched no file
    refine ⟨fun _ => hfiles, fun hcode hhelp => ?_⟩
    exact absurd hend (not_or.2 ⟨not_not.2 hcode, hhelp⟩)
  · have hr : r = _ := commandLine_of_execute hread hrun
    constructor
    · rintro (hcode | hhelp)
      · exact absurd (congrArg Report.code hr) hcode
      · exact absurd hhelp (not_showsHelp_of_execute hread hrun)
    · intro _ _
      -- it ended well: take apart what it did, step by step
      obtain ⟨start, last, hstart, hedits, hanswers, hfinish, rfl⟩ :=
        Options.execute_eq_ok_iff.1 hrun
      obtain ⟨parts, hparts, -, rfl⟩ := Options.read_eq_ok_iff.1 hread
      have hlast : (Options.ofParts parts).LeadsTo fs last :=
        ⟨start, Options.startSheet_eq_ok_iff.1 hstart, Sheet.assignAll_eq_ok_iff.1 hedits⟩
      refine ⟨parts, last, hparts, hlast, ?_, _, _, Sheet.length_assignAll hedits,
        Sheet.answer_eq_ok_iff.1 hanswers, ?_⟩
      · rw [hr]
        exact hlast.leaves hfinish
      · rw [hr, List.map_append, List.map_append]

end Report

end LiveSheet
