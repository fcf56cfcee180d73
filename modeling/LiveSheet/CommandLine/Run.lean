import LiveSheet.CommandLine.Options
import LiveSheet.Settings

namespace LiveSheet

/-!
# A run of the command line

A run opens the sheet file if it is there, makes the edits in order, answers the queries from the
sheet after all edits, and saves: to the output file if one is named, and else to the sheet file if
an edit was made.  The first problem ends the run, and nothing is saved.

* `Line` — a line of the output.
* `RunError` — what can end a run.
* `Options.execute` — a run with given options and settings.
* `commandLine` — a run from its arguments, with all that it shows and the files after it.
-/

/-- A line of the output. -/
inductive Line where
  /-- The cells computed again after an edit. -/
  | recalculated (order : List CellName)
  /-- The value of a cell that was asked for. -/
  | value (name : String) (value : Value)
  /-- A cell with its contents and its value. -/
  | cell (name : CellName) (cell : Cell)

/-- The text of a line. -/
def Line.text : Line → String
  | .recalculated order => "Recalculated: " ++ ", ".intercalate (order.map CellName.text)
  | .value given v => CellName.normalized given ++ ": " ++ v.display
  | .cell name c => name.text ++ ": " ++ c.contents.toInput ++ " => " ++ c.value.display

/-- What can end a run. -/
inductive RunError where
  | storage (e : StorageError)
  /-- An edit without an equals sign. -/
  | badAssignment (text : String)
  | edit (name : String) (cause : EditError)
  /-- A query for a text that names no cell. -/
  | invalidName (given : String)
deriving DecidableEq

/-- The wording of an error. -/
def RunError.message : RunError → String
  | .storage e => e.message
  | .badAssignment text => "Invalid --set '" ++ text ++ "': expected NAME=TEXT"
  | .edit name cause => "Cannot set " ++ name ++ ": " ++ cause.message
  | .invalidName given => CellName.invalidMessage given

/-! ### Edits and queries -/

/-- The name and the text of an assignment: what stands before its first equals sign, without blank
    ends, and what stands after it. -/
def splitAssignment? (assignment : String) : Option (String × String) :=
  match assignment.toList.dropWhile (· != '=') with
  | [] => none
  | _ :: input =>
    some (String.ofList (trim (assignment.toList.takeWhile (· != '='))), String.ofList input)

/-- Makes one edit. -/
def Sheet.assign (s : Sheet) (assignment : String) : Except RunError (Sheet × List CellName) :=
  match splitAssignment? assignment with
  | none => .error (.badAssignment assignment)
  | some (name, input) => (s.enter name input).mapError (.edit name)

/-- Makes edits in order.  With the outcome come the lists of cells computed again, one for each
    edit that was made. -/
def Sheet.assignAll (s : Sheet) : List String → List (List CellName) × Except RunError Sheet
  | [] => ([], .ok s)
  | assignment :: rest =>
    match s.assign assignment with
    | .error e => ([], .error e)
    | .ok (next, order) =>
      let more := next.assignAll rest
      (order :: more.1, more.2)

/-- Answers queries in order, up to the first text that names no cell. -/
def Sheet.answer (s : Sheet) : List String → List Line × Except RunError Unit
  | [] => ([], .ok ())
  | name :: rest =>
    match CellName.ofText? name with
    | none => ([], .error (.invalidName name))
    | some cell =>
      let more := s.answer rest
      (.value name (s.valueOf cell) :: more.1, more.2)

/-- A line for each non-empty cell. -/
def Sheet.listing (s : Sheet) : List Line :=
  s.cells.toList.map fun entry => .cell entry.1 entry.2

/-! ### Runs -/

/-- The path that a sheet is saved to at the end of a run, if it is saved. -/
def Options.target (o : Options) (s : Sheet) : Option String :=
  match o.output, o.file with
  | some path, _ => some path
  | none, some path => if s.changed then some path else none
  | none, none => none

/-- The sheet that a run starts from. -/
def Options.startSheet (o : Options) (fs : Files) : Except RunError Sheet :=
  match o.file with
  | some path => if fs.exists? path then (fs.openSheet path).mapError .storage else .ok Sheet.empty
  | none => .ok Sheet.empty

/-- What a run that ends well leaves: the files, and the path that was saved to. -/
structure Finish where
  files : Files
  saved : Option String

/-- The end of a run: the sheet is saved. -/
def Options.finish (o : Options) (settings : Settings) (fs : Files) (s : Sheet) :
    Except RunError Finish :=
  match o.target s with
  | none => .ok ⟨fs, none⟩
  | some path =>
    match fs.saveSheet s path (Layout.ofPretty settings.pretty) with
    | .ok files => .ok ⟨files, some path⟩
    | .error e => .error (.storage e)

/-- The reports of edits, if they are asked for. -/
def reportLines (settings : Settings) (orders : List (List CellName)) : List Line :=
  if settings.showOrder then orders.map .recalculated else []

/-- A run: the lines that it prints, and how it ends. -/
def Options.execute (o : Options) (settings : Settings) (fs : Files) :
    List Line × Except RunError Finish :=
  match o.startSheet fs with
  | .error e => ([], .error e)
  | .ok s =>
    let edits := s.assignAll o.sets
    let reports := reportLines settings edits.1
    match edits.2 with
    | .error e => (reports, .error e)
    | .ok s =>
      let answers := s.answer o.gets
      match answers.2 with
      | .error e => (reports ++ answers.1, .error e)
      | .ok () =>
        let listing := if o.print then s.listing else []
        (reports ++ answers.1 ++ listing, o.finish settings fs s)

/-- What a run shows and leaves. -/
structure Report where
  /-- The exit code. -/
  code : Nat
  /-- The lines of the output. -/
  output : List String
  /-- The lines of messages. -/
  messages : List String
  /-- The files after the run. -/
  files : Files
  /-- The path that was saved to. -/
  saved : Option String

/-- The settings of a run, with their warnings. -/
def Options.settings (o : Options) (fs : Files) : Settings × List Settings.Warning :=
  if o.noConfig then (Settings.default, []) else Settings.load fs o.config

/-- The report of arguments that ask for help or are wrong. -/
def Stop.report (fs : Files) : Stop → Report
  | .help => ⟨0, [], usage, fs, none⟩
  | .wrong e =>
    ⟨1, [], ("Error: " ++ e.message) :: (if e.showsUsage then usage else []), fs, none⟩

/-- A run from its arguments. -/
def commandLine (fs : Files) (arguments : List String) : Report :=
  match Options.read arguments with
  | .error stop => stop.report fs
  | .ok o =>
    let settings := o.settings fs
    let warnings := settings.2.map fun w => "Warning: " ++ w.message
    let result := o.execute settings.1 fs
    let output := result.1.map Line.text
    match result.2 with
    | .error e => ⟨1, output, warnings ++ ["Error: " ++ e.message], fs, none⟩
    | .ok finish =>
      ⟨0, output, warnings ++ (finish.saved.map fun path => "Saved to " ++ path).toList,
        finish.files, finish.saved⟩

end LiveSheet
