import LiveSheet.Storage.Opening

namespace LiveSheet

/-!
# Sessions

A session is a sheet at work with the files around it.  An action that fails leaves both as they
are.

* `Action` — an edit, a save or a load.
* `Session.perform` — one action, with its outcome.
* `Session.run` — a list of actions.
-/

/-- Why an action fails. -/
inductive SheetError where
  | edit (e : EditError)
  | storage (e : StorageError)
deriving DecidableEq

/-- The message shown to the user. -/
def SheetError.message : SheetError → String
  | .edit e => e.message
  | .storage e => e.message

/-- Something that changes a session. -/
inductive Action where
  /-- Types a text into the cell with a name. -/
  | enter (name input : String)
  /-- Gives a cell contents, or clears it. -/
  | set (cell : CellName) (contents : Option Contents)
  /-- Loads the sheet that a JSON text describes. -/
  | loadText (text : String)
  /-- Loads the sheet in a file. -/
  | loadFile (path : String)
  /-- Saves the sheet into a file. -/
  | save (path : String) (layout : Layout)

/-- A sheet and the files around it. -/
structure Session where
  sheet : Sheet
  files : Files

namespace Session

/-- An empty sheet with the given files. -/
def start (files : Files) : Session := ⟨Sheet.empty, files⟩

/-- An edit's outcome: the new session and the cells computed again. -/
def edited (s : Session) : Except EditError (Sheet × List CellName) →
    Except SheetError (Session × List CellName)
  | .ok (sheet, order) => .ok (⟨sheet, s.files⟩, order)
  | .error e => .error (.edit e)

/-- A load's outcome: the new session. -/
def loaded (s : Session) : Except StorageError Sheet → Except SheetError (Session × List CellName)
  | .ok sheet => .ok (⟨sheet, s.files⟩, [])
  | .error e => .error (.storage e)

/-- Tries an action. -/
def attempt (s : Session) : Action → Except SheetError (Session × List CellName)
  | .enter name input => s.edited (s.sheet.enter name input)
  | .set cell contents => s.edited (s.sheet.set cell contents)
  | .loadText text => s.loaded (Files.loadSheet text)
  | .loadFile path => s.loaded (s.files.openSheet path)
  | .save path layout =>
    match s.files.saveSheet s.sheet path layout with
    | .ok files => .ok (⟨s.sheet.saved, files⟩, [])
    | .error e => .error (.storage e)

/-- The session after an action; one that fails changes nothing. -/
def perform (s : Session) (a : Action) : Session :=
  match s.attempt a with
  | .ok (next, _) => next
  | .error _ => s

/-- The session after a list of actions. -/
def run (s : Session) (actions : List Action) : Session := actions.foldl perform s

end Session

end LiveSheet
