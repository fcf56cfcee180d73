import LiveSheet.Proofs.CommandLine.Runs
import LiveSheet.Proofs.Storage.Writing

namespace LiveSheet

/-!
# Settings do not touch the data

Settings choose a layout for the sheet file and whether edits are reported.  They are looked at when
the reports are printed and when the sheet is written, and all else in a run is done without them.
The layouts differ in size, so a file can be too large to be opened in one of them only; what is
compared here is what the texts say.

* `Sheet.Reports` — the orders that edits return, up to the first edit that is refused.
* `Options.Returns` — the same for the edits of a run.
* `Options.EndAlike` — two runs end with the same error, or leave sheet files that are read alike.
* `Options.execute_eq` — a run in parts that do not depend on the settings.
* `Options.LeadsTo.finish_alike` — the end of a run under two settings.
* `Options.execute_settings` — whole runs under two settings.
-/

/-! ### The orders that edits return -/

namespace Sheet

/-- Edits return these orders, one for each edit, until an edit is refused: it is no assignment, or
    the text cannot be typed into the cell. -/
inductive Reports : Sheet → List String → List (List CellName) → Prop where
  | nil {s : Sheet} : Reports s [] []
  | made {s next : Sheet} {assignment name input : String} {order : List CellName}
      {rest : List String} {orders : List (List CellName)} (hassign : Assigns assignment name input)
      (henter : s.enter name input = .ok (next, order)) (hrest : Reports next rest orders) :
      Reports s (assignment :: rest) (order :: orders)
  | refused {s : Sheet} {assignment : String} {rest : List String}
      (hrefused : ∀ name input done,
        Assigns assignment name input → s.enter name input ≠ .ok done) :
      Reports s (assignment :: rest) []

/-- **One order for each edit that is made**, and no other ones. -/
theorem reports_iff {s : Sheet} {sets : List String} {orders : List (List CellName)} :
    s.Reports sets orders ↔ orders = (s.assignAll sets).1 := by
  constructor
  · intro h
    induction h with
    | nil => rfl
    | made hassigns henter _ ih =>
      unfold assignAll
      rw [assign_eq_ok_iff.2 ⟨_, _, hassigns, henter⟩, ih]
    | @refused s assignment rest hrefused =>
      -- an assignment that is made was not refused
      unfold assignAll
      cases hassign : s.assign assignment with
      | error e => rfl
      | ok result =>
        obtain ⟨name, input, hassigns, henter⟩ := assign_eq_ok_iff.1 hassign
        exact absurd henter (hrefused name input result hassigns)
  · rintro rfl
    induction sets generalizing s with
    | nil => exact .nil
    | cons assignment rest ih =>
      unfold assignAll
      cases hassign : s.assign assignment with
      | error e =>
        refine .refused fun name input done hassigns henter => ?_
        have hmade := assign_eq_ok_iff.2 ⟨name, input, hassigns, henter⟩
        rw [hassign] at hmade
        cases hmade
      | ok result =>
        obtain ⟨name, input, hassigns, henter⟩ := assign_eq_ok_iff.1 hassign
        exact .made hassigns henter ih

end Sheet

/-! ### Lines of the output -/

/-- A line that answers a query or lists a cell, and reports no edit. -/
def Line.ShowsCell : Line → Prop
  | .recalculated _ => False
  | .value _ _ => True
  | .cell _ _ => True

namespace Sheet

variable {s : Sheet} {line : Line}

/-- All lines that answer queries show cells. -/
theorem showsCell_of_mem_answer {gets : List String} (h : line ∈ (s.answer gets).1) :
    line.ShowsCell := by
  induction gets with
  | nil => cases h
  | cons given rest ih =>
    unfold answer at h
    split at h
    · cases h
    · rcases List.mem_cons.1 h with rfl | hrest
      · trivial
      · exact ih hrest

/-- All lines of a listing show cells. -/
theorem showsCell_of_mem_listing (h : line ∈ s.listing) : line.ShowsCell := by
  obtain ⟨entry, -, rfl⟩ := List.mem_map.1 h
  trivial

end Sheet

/-- Where no edit was made, there is nothing to report. -/
@[simp] theorem reportLines_nil (settings : Settings) : reportLines settings [] = [] := by
  unfold reportLines
  split
  · rfl
  · rfl

namespace Options

/-! ### How runs end -/

/-- Two runs with the same options, on the same files, end alike: with the same error, or with all
    files as they were, or with one file written, at the same path, where texts stand that are both
    read as the file of the sheet that the edits lead to. -/
inductive EndAlike (o : Options) (fs : Files) :
    Except RunError Finish → Except RunError Finish → Prop where
  | failed {e : RunError} : EndAlike o fs (.error e) (.error e)
  | unsaved (hpath : o.savesTo = none) : EndAlike o fs (.ok ⟨fs, none⟩) (.ok ⟨fs, none⟩)
  | saved {path text text' : String} {last : Sheet} {left left' : Files}
      (hpath : o.savesTo = some path) (hlast : o.LeadsTo fs last)
      (hleft : fs.OnlyWritten path text left) (hleft' : fs.OnlyWritten path text' left')
      (hread : SheetFile.read? text = some last.toFile)
      (hread' : SheetFile.read? text' = some last.toFile) :
      EndAlike o fs (.ok ⟨left, some path⟩) (.ok ⟨left', some path⟩)

variable {o : Options} {fs : Files} {last : Sheet}

/-- Whether and where a sheet is saved does not depend on the settings, nor does what the text in
    the file is read as. -/
theorem LeadsTo.finish_alike (h : o.LeadsTo fs last) (a b : Settings) :
    o.EndAlike fs (o.finish a fs last) (o.finish b fs last) := by
  unfold finish
  rw [h.target]
  cases hpath : o.savesTo with
  | none => exact .unsaved hpath
  | some path =>
    have hread (layout : Layout) : SheetFile.read? (last.toJson layout) = some last.toFile :=
      last.toFile.read?_write layout
    simp only [Files.saveSheet]
    -- a write fails at the place that the path leads to, before the text matters
    cases htarget : fs.target path with
    | error e =>
      simp only [Files.writeText, htarget, Except.map, Except.mapError]
      exact .failed
    | ok place =>
      have hwrite (text : String) :
          fs.writeText path text = .ok (fs.put place (.file text.toUTF8)) :=
        Files.writeText_eq_ok_iff.2 ⟨place, htarget, rfl⟩
      simp only [hwrite, Except.mapError]
      exact .saved hpath h (Files.onlyWritten_of_writeText (hwrite _))
        (Files.onlyWritten_of_writeText (hwrite _)) (hread _) (hread _)

/-! ### Whole runs -/

/-- The edits of a run return these orders, and if there is no sheet to start from, no edit is
    made. -/
def Returns (o : Options) (fs : Files) (orders : List (List CellName)) : Prop :=
  (∃ start, o.StartsFrom fs start ∧ start.Reports o.sets orders) ∨
    (∀ start, ¬ o.StartsFrom fs start) ∧ orders = []

/-- **A run in parts.**  The orders that its edits return, the lines that show cells, and the error
    or the sheet that it comes to, are there before the settings are looked at. -/
theorem execute_eq (o : Options) (fs : Files) : ∃ orders lines outcome, o.Returns fs orders ∧
    (∀ line ∈ lines, Line.ShowsCell line) ∧ (∀ last, outcome = .ok last → o.LeadsTo fs last) ∧
    ∀ settings, o.execute settings fs
      = (reportLines settings orders ++ lines, Except.bind outcome (o.finish settings fs)) := by
  unfold execute
  -- where the run stops is decided without the settings
  cases hstart : o.startSheet fs with
  | error e =>
    -- without a sheet to start from, nothing is reported
    have hnone : ∀ start, ¬ o.StartsFrom fs start := by
      intro start hfrom
      rw [startSheet_eq_ok_iff.2 hfrom] at hstart
      cases hstart
    refine ⟨[], [], .error e, Or.inr ⟨hnone, rfl⟩, by simp, by simp, fun settings => ?_⟩
    simp [Except.bind]
  | ok start =>
    have hreturns : o.Returns fs (start.assignAll o.sets).1 :=
      Or.inl ⟨start, startSheet_eq_ok_iff.1 hstart, Sheet.reports_iff.2 rfl⟩
    cases hedits : (start.assignAll o.sets).2 with
    | error e =>
      refine ⟨_, [], .error e, hreturns, by simp, by simp, fun settings => ?_⟩
      simp [hedits, Except.bind]
    | ok last =>
      -- the edits are made, and the queries show cells up to the first that names none
      have hanswers : ∀ line ∈ (last.answer o.gets).1, line.ShowsCell :=
        fun line hline => Sheet.showsCell_of_mem_answer hline
      cases hend : (last.answer o.gets).2 with
      | error e =>
        refine ⟨_, _, .error e, hreturns, hanswers, by simp, fun settings => ?_⟩
        simp [hedits, hend, Except.bind]
      | ok done =>
        have hlisting : ∀ line ∈ (if o.print then last.listing else []), line.ShowsCell := by
          split
          · exact fun line hline => Sheet.showsCell_of_mem_listing hline
          · simp
        refine ⟨_, _, .ok last, hreturns, List.forall_mem_append.2 ⟨hanswers, hlisting⟩, ?_,
          fun settings => ?_⟩
        · rintro _ ⟨⟩
          exact ⟨start, startSheet_eq_ok_iff.1 hstart, Sheet.assignAll_eq_ok_iff.1 hedits⟩
        · simp [hedits, hend, Except.bind]

/-- **Settings do not touch the data.**  Whatever the options and the files are, there are the
    orders that the edits return, and lines that show cells, such that
    * a run prints these lines, and in front of them it reports the orders if the settings ask for
      it, and prints nothing else,
    * runs under two settings end with the same error or both end well, and then both write no file
      or both write to the same path, where what they write is read as the file of the same
      sheet. -/
theorem execute_settings (o : Options) (fs : Files) :
    ∃ orders lines, o.Returns fs orders ∧ (∀ line ∈ lines, Line.ShowsCell line) ∧
      (∀ settings, (o.execute settings fs).1
        = (if settings.showOrder then orders.map .recalculated else []) ++ lines) ∧
      ∀ a b, o.EndAlike fs (o.execute a fs).2 (o.execute b fs).2 := by
  obtain ⟨orders, lines, outcome, horders, hlines, hlast, hrun⟩ := o.execute_eq fs
  refine ⟨orders, lines, horders, hlines, fun settings => ?_, fun a b => ?_⟩
  · rw [hrun]
    rfl
  · rw [hrun, hrun]
    cases outcome with
    | error e => exact .failed
    | ok last => exact (hlast last rfl).finish_alike a b

end Options

end LiveSheet
