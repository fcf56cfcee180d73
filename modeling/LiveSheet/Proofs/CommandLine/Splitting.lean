import LiveSheet.Proofs.CommandLine.Runs
import LiveSheet.Proofs.Session.Reopening
import LiveSheet.Proofs.Sheet.ZeroSign

namespace LiveSheet

/-!
# Edits in one run or in two

A run that saves its sheet and another that opens it again come to where a single run comes that
keeps the sheet in memory.  What was opened may differ from what was saved in the signs of zeros,
and neither edits nor queries nor the saved text can tell.

* `Sheet.assignAll_append` — the edits of a run, in two parts.
* `Sheet.UpToZeroSign.assignAll`, `Sheet.UpToZeroSign.shown` — the edits and the output of runs on
  sheets that differ in the signs of zeros only.
* `Files.storing_append` — what two runs leave in a file.
* `Options.RunsTo`, `Options.RunsTo.report` — a run that ends well, and what it leaves and shows.
* `Options.RunsTo.first`, `Options.RunsTo.second` — the two runs that a run can be split into.
* `commandLine_split` — they do what the one does.
-/

namespace Sheet

variable {s t mid next last : Sheet} {xs ys sets : List String} {order : List CellName}

/-! ### Edits in two parts -/

/-- **Edits in two parts.**  The second part starts from the sheet that the first one gives. -/
theorem assignAll_append (h : (s.assignAll xs).2 = .ok mid) :
    s.assignAll (xs ++ ys) =
      ((s.assignAll xs).1 ++ (mid.assignAll ys).1, (mid.assignAll ys).2) := by
  induction xs generalizing s with
  | nil =>
    cases h
    rfl
  | cons assignment rest ih =>
    cases hassign : s.assign assignment with
    | error e => simp [assignAll, hassign] at h
    | ok result =>
      obtain ⟨next, order⟩ := result
      simp only [assignAll, hassign] at h
      simp only [List.cons_append, assignAll, hassign, ih h]

/-- Edits that are all made can be cut anywhere. -/
theorem exists_assignAll_of_append (h : (s.assignAll (xs ++ ys)).2 = .ok last) :
    ∃ mid, (s.assignAll xs).2 = .ok mid := by
  induction xs generalizing s with
  | nil => exact ⟨s, rfl⟩
  | cons assignment rest ih =>
    rw [List.cons_append] at h
    unfold assignAll at h ⊢
    split at h
    · cases h
    · apply ih h

/-! ### Sheets that differ in the signs of zeros -/

namespace UpToZeroSign

/-- An assignment makes no difference between sheets that agree but for the signs of zeros. -/
theorem assign {assignment : String} (h : s.UpToZeroSign t)
    (hassign : s.assign assignment = .ok (next, order)) :
    ∃ next', t.assign assignment = .ok (next', order) ∧ next.UpToZeroSign next' := by
  obtain ⟨name, input, hassigns, henter⟩ := assign_eq_ok_iff.1 hassign
  obtain ⟨next', henter', hnext⟩ := h.enter henter
  exact ⟨next', assign_eq_ok_iff.2 ⟨name, input, hassigns, henter'⟩, hnext⟩

/-- The same edits are made, with the same reports. -/
theorem assignAll (h : s.UpToZeroSign t) (hall : (s.assignAll sets).2 = .ok last) :
    ∃ last', t.assignAll sets = ((s.assignAll sets).1, .ok last') ∧ last.UpToZeroSign last' := by
  -- the two sheets go on side by side
  induction sets generalizing s t with
  | nil =>
    cases hall
    exact ⟨t, rfl, h⟩
  | cons assignment rest ih =>
    unfold Sheet.assignAll at hall ⊢
    split at hall
    · cases hall
    · next next order hassign =>
      obtain ⟨next', hassign', hnext⟩ := h.assign hassign
      obtain ⟨last', hrest, hlast⟩ := ih hnext hall
      refine ⟨last', ?_, hlast⟩
      rw [hassign']
      simp only [hrest]

/-- The same queries are answered, with the same lines. -/
theorem answer (h : s.UpToZeroSign t) (gets : List String) :
    (s.answer gets).1.map Line.text = (t.answer gets).1.map Line.text ∧
      (s.answer gets).2 = (t.answer gets).2 := by
  induction gets with
  | nil => exact ⟨rfl, rfl⟩
  | cons given rest ih =>
    unfold Sheet.answer
    cases CellName.ofText? given with
    | none => exact ⟨rfl, rfl⟩
    | some n =>
      refine ⟨?_, ih.2⟩
      simp only [List.map_cons, Line.text, h.display n, ih.1]

/-- All cells are shown with the same lines. -/
theorem listing (h : s.UpToZeroSign t) :
    s.listing.map Line.text = t.listing.map Line.text := by
  have hline : ∀ n (c : Cell), (Line.cell n c.unsignZero).text = (Line.cell n c).text := by
    intro n c
    show n.text ++ ": " ++ c.contents.unsignZero.toInput ++ " => " ++ c.value.unsignZero.display = _
    rw [Contents.toInput_unsignZero, Value.display_unsignZero]
    rfl
  unfold Sheet.listing
  rw [List.map_map, List.map_map]
  exact h.map_cells (f := fun n c => (Line.cell n c).text) hline

end UpToZeroSign

end Sheet

/-! ### What runs leave in a file -/

namespace Files

variable {fs : Files} {place : Place} {xs ys : List String} {first second path : String}

/-- The files after edits: a text stands at a place, if there was an edit. -/
def storing (fs : Files) (place : Place) (sets : List String) (text : String) : Files :=
  if sets = [] then fs else fs.put place (.file text.toUTF8)

/-- What two runs leave is what the last of them stored. -/
theorem storing_append (h : ys = [] → first = second) :
    (fs.storing place xs first).storing place ys second = fs.storing place (xs ++ ys) second := by
  unfold storing
  by_cases hys : ys = []
  · simp [hys, h hys]
  · by_cases hxs : xs = []
    · simp [hxs]
    · simp [hxs, hys, put_put]

/-- What is stored does not change where a path puts a file. -/
theorem target_storing (h : fs.target path = .ok place) :
    (fs.storing place xs first).target path = .ok place := by
  unfold storing
  split
  · exact h
  · exact target_put h

end Files

/-! ### The sheet in the file between two runs -/

namespace Options

variable {o : Options} {fs : Files} {path : String} {place : Place}
  {mid last : Sheet} {orders : List (List CellName)} {xs ys : List String}

/-- What holds of the empty sheet and is kept by edits and by saving holds of every sheet that a run
    ends with. -/
theorem LeadsTo.induction {P : Sheet → Prop} (h : o.LeadsTo fs last) (hempty : P Sheet.empty)
    (hset : ∀ s cell contents next order, P s → Contents.IsTyped contents →
      s.set cell contents = .ok (next, order) → P next) (hsaved : ∀ s, P s → P s.saved) :
    P last := by
  obtain ⟨start, hstart, hedits⟩ := h
  -- the sheet at the start was loaded or is empty
  have hfirst : P start := by
    obtain ⟨path, -, -, hopen⟩ | ⟨-, rfl⟩ := hstart
    · obtain ⟨text, hjson⟩ := Files.exists_ofJson_of_openSheet hopen
      exact Sheet.ofJson_induction hset hempty hsaved hjson
    · exact hempty
  clear hstart
  -- from there on there are only edits
  generalize o.sets = sets at hedits
  induction hedits with
  | nil => exact hfirst
  | cons _ henter _ ih =>
    obtain ⟨cell, contents, -, hinput, hedit⟩ := Sheet.enter_eq_ok_iff.1 henter
    exact ih (hset _ cell contents _ _ hfirst ⟨_, hinput⟩ hedit)

/-- The sheet that a run ends with is coherent, and its contents were typed. -/
theorem LeadsTo.coherent_and_typed (h : o.LeadsTo fs last) : last.Coherent ∧ last.Typed := by
  apply h.induction (P := fun s => s.Coherent ∧ s.Typed)
  · exact ⟨Sheet.coherent_empty, Sheet.typed_empty⟩
  · rintro s cell contents next order ⟨hs, htyped⟩ hcontents hset
    exact ⟨hs.set hset, htyped.set hcontents hset⟩
  · rintro s ⟨hs, htyped⟩
    exact ⟨hs.saved, htyped⟩

/-- A run on a sheet file makes its edits and answers its queries, and if it has edits to save, the
    file belongs at a place. -/
structure RunsTo (o : Options) (fs : Files) (path : String) (place : Place)
    (orders : List (List CellName)) (last : Sheet) : Prop where
  file : o.file = some path
  output : o.output = none
  edits : ∃ start, o.startSheet fs = .ok start ∧ start.assignAll o.sets = (orders, .ok last)
  answers : (last.answer o.gets).2 = .ok ()
  target : o.sets ≠ [] → fs.target path = .ok place

/-- The lines with which a run shows the cells of a sheet. -/
def shown (o : Options) (s : Sheet) : List String :=
  ((s.answer o.gets).1 ++ if o.print then s.listing else []).map Line.text

/-- The sheet that a run ends with is the one its edits lead to. -/
theorem RunsTo.leadsTo (h : o.RunsTo fs path place orders last) : o.LeadsTo fs last := by
  obtain ⟨start, hstart, hedits⟩ := h.edits
  exact ⟨start, startSheet_eq_ok_iff.1 hstart,
    Sheet.assignAll_eq_ok_iff.1 (congrArg Prod.snd hedits)⟩

/-- A run that ends well has made its edits and answered its queries. -/
theorem exists_runsTo {arguments : List String} (hread : read arguments = .ok o)
    (hfile : o.file = some path) (houtput : o.output = none)
    (hcode : (commandLine fs arguments).code = 0) :
    ∃ place orders last, o.RunsTo fs path place orders last := by
  obtain ⟨lines, finish, hrun⟩ := exists_execute_of_code hread hcode
  obtain ⟨start, last, hstart, hedits, hanswers, hfinish, -⟩ := execute_eq_ok_iff.1 hrun
  have hleads : o.LeadsTo fs last :=
    ⟨start, startSheet_eq_ok_iff.1 hstart, Sheet.assignAll_eq_ok_iff.1 hedits⟩
  obtain ⟨place, hplace⟩ : ∃ place, o.sets ≠ [] → fs.target path = .ok place := by
    by_cases hsets : o.sets = []
    · exact ⟨[], absurd hsets⟩
    · obtain ⟨-, hfiles⟩ := finish_eq_ok_iff.1 hfinish
      rw [hleads.target, savesTo, houtput, if_neg hsets, hfile] at hfiles
      obtain ⟨place, hplace, -⟩ := Files.writeText_eq_ok_iff.1 hfiles
      exact ⟨place, fun _ => hplace⟩
  exact ⟨place, _, last, hfile, houtput, ⟨start, hstart, Prod.ext rfl hedits⟩, hanswers, hplace⟩

/-- At its end the run stores its sheet. -/
theorem RunsTo.finish_eq (h : o.RunsTo fs path place orders last) (settings : Settings) :
    o.finish settings fs last = .ok
      ⟨fs.storing place o.sets (last.toJson (Layout.ofPretty settings.pretty)), o.savesTo⟩ := by
  rw [finish_eq_ok_iff, h.leadsTo.target]
  refine ⟨rfl, ?_⟩
  unfold savesTo Files.storing
  rw [h.output, h.file]
  by_cases hsets : o.sets = []
  · simp [hsets]
  · simp only [hsets, if_false]
    exact Files.writeText_eq_ok_iff.2 ⟨place, h.target hsets, rfl⟩

/-- **A run on a sheet file ends well** when it makes its edits and answers its queries.  It stores
    the sheet, reports its edits and shows the cells that were asked for. -/
theorem RunsTo.report {arguments : List String} (h : o.RunsTo fs path place orders last)
    (hread : read arguments = .ok o) :
    (commandLine fs arguments).code = 0 ∧
      (commandLine fs arguments).files =
        fs.storing place o.sets (last.toJson (Layout.ofPretty (o.settings fs).1.pretty)) ∧
      (commandLine fs arguments).output =
        (reportLines (o.settings fs).1 orders).map Line.text ++ o.shown last := by
  obtain ⟨start, hstart, hedits⟩ := h.edits
  have hrun := execute_eq_ok_iff.2
    ⟨start, last, hstart, congrArg Prod.snd hedits, h.answers, h.finish_eq (o.settings fs).1, rfl⟩
  rw [commandLine_of_execute hread hrun, hedits]
  refine ⟨rfl, rfl, ?_⟩
  simp only [shown, List.map_append, List.append_assoc]

/-- **A second run starts from the sheet that the first one ended with**, but for the signs of
    zeros. -/
theorem RunsTo.startSheet_after {layout : Layout} (h : o.RunsTo fs path place orders mid)
    (hsize : ∀ size, (fs.storing place o.sets (mid.toJson layout)).size path = .ok size →
      size ≤ maxSheetBytes) :
    ∃ t, o.startSheet (fs.storing place o.sets (mid.toJson layout)) = .ok t ∧
      mid.UpToZeroSign t := by
  obtain ⟨hmid, htyped⟩ := h.leadsTo.coherent_and_typed
  by_cases hsets : o.sets = []
  · -- nothing was saved, and nothing was changed
    obtain ⟨start, hstart, hedits⟩ := h.edits
    rw [hsets] at hedits
    cases hedits
    rw [Files.storing, if_pos hsets]
    exact ⟨_, hstart, .refl hmid⟩
  · rw [Files.storing, if_neg hsets] at hsize ⊢
    have hfind : (fs.put place (.file (mid.toJson layout).toUTF8)).find path
        = .ok (.file (mid.toJson layout).toUTF8) :=
      Files.find_writeText (Files.writeText_eq_ok_iff.2 ⟨place, h.target hsets, rfl⟩)
    obtain ⟨t, ht, hsame⟩ := Sheet.exists_ofJson_upToZeroSign hmid htyped layout
    refine ⟨t, startSheet_eq_ok_iff.2
      (Or.inl ⟨path, h.file, Files.exists?_of_find hfind, ?_⟩), hsame⟩
    rw [Files.openSheet_of_find hfind,
      if_neg (Nat.not_lt.2 (hsize _ (Files.size_of_find hfind))), Files.loadSheet, ht]
    rfl

/-- The first part of the edits can be made in a run of their own. -/
theorem RunsTo.first
    (h : RunsTo { o with sets := xs ++ ys } fs path place orders last) :
    ∃ mid before after, orders = before ++ after ∧ mid.assignAll ys = (after, .ok last) ∧
      RunsTo { o with sets := xs, gets := [], print := false } fs path place before mid := by
  obtain ⟨start, hstart, hedits⟩ := h.edits
  obtain ⟨mid, hmid⟩ := Sheet.exists_assignAll_of_append (congrArg Prod.snd hedits)
  have happend := (Sheet.assignAll_append hmid).symm.trans hedits
  obtain ⟨horders, hlast⟩ := Prod.mk.inj happend
  exact ⟨mid, _, _, horders.symm, Prod.ext rfl hlast, h.file, h.output,
    ⟨start, hstart, Prod.ext rfl hmid⟩, rfl, fun hxs => h.target (by simp_all)⟩

/-- The second part of the edits can be made in a run after that. -/
theorem RunsTo.second {before after : List (List CellName)} {layout : Layout}
    (h : RunsTo { o with sets := xs ++ ys } fs path place orders last)
    (hfirst : RunsTo { o with sets := xs, gets := [], print := false } fs path place before mid)
    (hys : mid.assignAll ys = (after, .ok last))
    (hsize : ∀ size, (fs.storing place xs (mid.toJson layout)).size path = .ok size →
      size ≤ maxSheetBytes) :
    ∃ last', last.UpToZeroSign last' ∧ RunsTo { o with sets := ys }
      (fs.storing place xs (mid.toJson layout)) path place after last' := by
  obtain ⟨t, ht, hsame⟩ := hfirst.startSheet_after hsize
  obtain ⟨last', hedits, hsame'⟩ := hsame.assignAll (congrArg Prod.snd hys)
  rw [hys] at hedits
  refine ⟨last', hsame', h.file, h.output, ⟨t, ht, hedits⟩, ?_, fun hysne => ?_⟩
  · exact (hsame'.answer o.gets).2.symm.trans h.answers
  · exact Files.target_storing (h.target (by simp_all))

end Options

/-- The lines that show cells are the same, because zeros are shown without their signs. -/
theorem Sheet.UpToZeroSign.shown {s t : Sheet} (h : s.UpToZeroSign t) (o : Options) :
    o.shown s = o.shown t := by
  unfold Options.shown
  rw [List.map_append, List.map_append, (h.answer o.gets).1]
  cases o.print
  · rfl
  · exact congrArg _ h.listing

/-! ### Two runs -/

/-- **Edits in one run or in two.**  When a run on a sheet file makes all edits, then a first run
    with some of them and a second one with the others, under the same settings, end well too, if
    the file between them is not too large.  They leave the same files, report the same cells for
    each edit, and the second shows the same values and cells as the single run. -/
theorem commandLine_split {o : Options} {fs : Files} {path : String}
    {xs ys whole first second : List String}
    (hfile : o.file = some path) (houtput : o.output = none)
    (hwhole : Options.read whole = .ok { o with sets := xs ++ ys })
    (hfirst : Options.read first = .ok { o with sets := xs, gets := [], print := false })
    (hsecond : Options.read second = .ok { o with sets := ys })
    (hcode : (commandLine fs whole).code = 0)
    (hsettings : (o.settings (commandLine fs first).files).1 = (o.settings fs).1)
    (hsize : ∀ size, (commandLine fs first).files.size path = .ok size → size ≤ maxSheetBytes) :
    let single := commandLine fs whole
    let saving := commandLine fs first
    let reopening := commandLine saving.files second
    let settings := (o.settings fs).1
    saving.code = 0 ∧ reopening.code = 0 ∧ reopening.files = single.files ∧
      ∃ before after cells, before.length = xs.length ∧ after.length = ys.length ∧
        single.output = (reportLines settings (before ++ after)).map Line.text ++ cells ∧
        saving.output = (reportLines settings before).map Line.text ∧
        reopening.output = (reportLines settings after).map Line.text ++ cells := by
  intro single saving reopening settings
  obtain ⟨place, orders, last, hrun⟩ := Options.exists_runsTo hwhole hfile houtput hcode
  obtain ⟨mid, before, after, rfl, hys, hrun₁⟩ := hrun.first
  obtain ⟨-, hfiles, hlines⟩ := hrun.report hwhole
  obtain ⟨hcode₁, hfiles₁, hlines₁⟩ := hrun₁.report hfirst
  have hbetween : saving.files =
      fs.storing place xs (mid.toJson (Layout.ofPretty settings.pretty)) := hfiles₁
  -- the second run has a sheet that differs in the signs of zeros only
  obtain ⟨last', hsame, hrun₂⟩ := hrun.second hrun₁ hys (hbetween ▸ hsize)
  rw [← hbetween] at hrun₂
  obtain ⟨hcode₂, hfiles₂, hlines₂⟩ := hrun₂.report hsecond
  have hsettings₂ : (Options.settings { o with sets := ys } saving.files).1 = settings := hsettings
  rw [hsettings₂] at hfiles₂ hlines₂
  refine ⟨hcode₁, hcode₂, ?_, before, after, o.shown last, ?_, ?_, hlines, ?_, ?_⟩
  · have hnothing : ys = [] → mid.toJson (Layout.ofPretty settings.pretty) =
        last.toJson (Layout.ofPretty settings.pretty) := by
      rintro rfl
      cases hys
      rfl
    calc reopening.files
        = saving.files.storing place ys (last.toJson (Layout.ofPretty settings.pretty)) := by
          rw [hsame.toJson]
          exact hfiles₂
      _ = fs.storing place (xs ++ ys) (last.toJson (Layout.ofPretty settings.pretty)) := by
          rw [hbetween, Files.storing_append hnothing]
      _ = single.files := hfiles.symm
  · obtain ⟨start, -, hedits⟩ := hrun₁.edits
    rw [← Sheet.length_assignAll (congrArg Prod.snd hedits), hedits]
  · rw [← Sheet.length_assignAll (congrArg Prod.snd hys), hys]
  · rw [← List.append_nil (List.map _ _)]
    exact hlines₁
  · rw [hsame.shown o]
    exact hlines₂

/-! ### A negative zero between two runs -/

/-- The cell of a negative zero. -/
def zeroCell : CellName := ⟨"Z2", by decide⟩

/-- The cell of a text. -/
def labelCell : CellName := ⟨"Z1", by decide⟩

/-- The sheet after the first run. -/
def zeroSheet : Sheet :=
  Sheet.empty.commit zeroCell (some (.number (.finite true Double.zeroRank))) [zeroCell]

/-- The sheet after both runs. -/
def labelledSheet : Sheet := zeroSheet.commit labelCell (some (.text "zero")) [labelCell]

/-- What all runs ask for. -/
def showing : Options := ⟨some "z.json", [], ["z2"], true, none, none, true⟩

/-- The first assignment types a negative zero into the empty sheet. -/
theorem assign_zero : Sheet.empty.assign "z2=-0" = .ok (zeroSheet, [zeroCell]) := by
  have hwalk (v : Double) : (Sheet.empty.graph.prospectiveWalk zeroCell
      (Sheet.newReferences (some (.number v)))).result = .ok [zeroCell] := by cbv
  apply Sheet.assign_eq_ok_iff.2
  refine ⟨"z2", "-0", splitAssignment?_eq_some_iff.1 (by decide +kernel), ?_⟩
  apply Sheet.enter_eq_ok_iff.2
  exact ⟨zeroCell, _, by decide +kernel, rfl, Sheet.set_eq_ok_iff.2 ⟨hwalk _, rfl⟩⟩

/-- The second assignment types a text beside it. -/
theorem assign_label : zeroSheet.assign "z1=zero" = .ok (labelledSheet, [labelCell]) := by
  have hwalk (v : Double) :
      ((Sheet.empty.commit zeroCell (some (.number v)) [zeroCell]).graph.prospectiveWalk labelCell
        (Sheet.newReferences (some (.text "zero")))).result = .ok [labelCell] := by cbv
  apply Sheet.assign_eq_ok_iff.2
  refine ⟨"z1", "zero", splitAssignment?_eq_some_iff.1 (by decide +kernel), ?_⟩
  apply Sheet.enter_eq_ok_iff.2
  exact ⟨labelCell, some (.text "zero"), by decide +kernel, rfl,
    Sheet.set_eq_ok_iff.2 ⟨hwalk _, rfl⟩⟩

/-- There are no files yet, so the runs start from the empty sheet. -/
theorem startSheet_showing {o : Options} (h : o.file = some "z.json") :
    o.startSheet ∅ = .ok Sheet.empty := by
  refine Options.startSheet_eq_ok_iff.2 (Or.inr ⟨fun path hpath => ?_, rfl⟩)
  cases h.symm.trans hpath
  decide +kernel

/-- The first run alone makes the first assignment and saves. -/
theorem runsTo_zero :
    Options.RunsTo { showing with sets := ["z2=-0"], gets := [], print := false } ∅
      "z.json" ["z.json"] [[zeroCell]] zeroSheet where
  file := rfl
  output := rfl
  edits := ⟨Sheet.empty, startSheet_showing rfl, by simp only [Sheet.assignAll, assign_zero]⟩
  answers := rfl
  target _ := by decide +kernel

/-- A single run makes both assignments, shows the zero, and saves. -/
theorem runsTo_labelled : Options.RunsTo { showing with sets := ["z2=-0"] ++ ["z1=zero"] } ∅
    "z.json" ["z.json"] [[zeroCell], [labelCell]] labelledSheet where
  file := rfl
  output := rfl
  edits := ⟨Sheet.empty, startSheet_showing rfl, by
    simp only [List.singleton_append, Sheet.assignAll, assign_zero, assign_label]⟩
  answers := by decide +kernel
  target _ := by decide +kernel

/-- A negative zero is typed into `Z2` and a text into `Z1`, from no files, by one run or by two
    with a saved file of 62 bytes between them.  All three runs end well, and the files are the
    same, though the zero has lost its sign in between. -/
theorem commandLine_split_labelled :
    let single := commandLine ∅
      ["z.json", "--no-config", "-s", "z2=-0", "-s", "z1=zero", "-g", "z2", "-p"]
    let saving := commandLine ∅ ["z.json", "--no-config", "-s", "z2=-0"]
    let reopening := commandLine saving.files
      ["z.json", "--no-config", "-s", "z1=zero", "-g", "z2", "-p"]
    single.code = 0 ∧ saving.code = 0 ∧ reopening.code = 0 ∧ reopening.files = single.files := by
  intro single saving reopening
  -- what the three argument lists ask for
  have hwhole : Options.read
      ["z.json", "--no-config", "-s", "z2=-0", "-s", "z1=zero", "-g", "z2", "-p"]
      = .ok { showing with sets := ["z2=-0"] ++ ["z1=zero"] } := by
    simp [Options.read, Options.readFrom, Options.readSingle, Options.ValueOption.ofArgument?,
      Options.initial]
    rfl
  have hfirst : Options.read ["z.json", "--no-config", "-s", "z2=-0"]
      = .ok { showing with sets := ["z2=-0"], gets := [], print := false } := by
    simp [Options.read, Options.readFrom, Options.readSingle, Options.ValueOption.ofArgument?,
      Options.initial]
    rfl
  have hsecond : Options.read ["z.json", "--no-config", "-s", "z1=zero", "-g", "z2", "-p"]
      = .ok { showing with sets := ["z1=zero"] } := by
    simp [Options.read, Options.readFrom, Options.readSingle, Options.ValueOption.ofArgument?,
      Options.initial]
    rfl
  -- the single run ends well, and what the first run saves is far below the limit
  have hcode : single.code = 0 := (runsTo_labelled.report hwhole).1
  have hsize : ∀ size, saving.files.size "z.json" = .ok size → size ≤ maxSheetBytes := by
    have hstored : saving.files.size "z.json" = .ok 62 := by
      simp only [saving, (runsTo_zero.report hfirst).2.1]
      decide +kernel
    rintro size hfound
    cases hstored.symm.trans hfound
    decide
  obtain ⟨hsaving, hreopening, hfiles, -⟩ :=
    commandLine_split rfl rfl hwhole hfirst hsecond hcode rfl hsize
  exact ⟨hcode, hsaving, hreopening, hfiles⟩

end LiveSheet
