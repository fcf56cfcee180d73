import LiveSheet.Sheet.Edit
import LiveSheet.Storage.Writing

namespace LiveSheet

/-!
# Sheets and sheet files

A sheet is saved as the text that has to be typed into each cell, and loaded by typing these texts
into an empty sheet, in the order of the names.

* `Sheet.toFile`, `Sheet.toJson` — saving.
* `LoadError` — why a text cannot be loaded.
* `Sheet.ofFile`, `Sheet.ofJson` — loading; two names that differ in letter case only are refused.
-/

/-- Why a text cannot be loaded. -/
inductive LoadError where
  /-- The text is no sheet file. -/
  | malformed
  /-- Two names belong to this cell. -/
  | duplicate (cell : String)
  /-- The text of the cell with this name cannot be typed. -/
  | cell (name : String) (cause : EditError)
deriving DecidableEq

/-- The wording of a load error. -/
def LoadError.detail : LoadError → String
  | .malformed => "Malformed sheet data"
  | .duplicate name => "Duplicate cell " ++ name ++ " (names are case-insensitive)"
  | .cell name cause => "Cannot load cell " ++ name ++ ": " ++ cause.message

/-- The first text that occurs again among those before it, given the texts seen already. -/
def firstRepeated (seen : Std.ExtTreeSet String) : List String → Option String
  | [] => none
  | s :: rest => if seen.contains s then some s else firstRepeated (seen.insert s) rest

namespace Sheet

/-- The texts that have to be typed to get a sheet. -/
def toFile (s : Sheet) : SheetFile :=
  .ofMembers (s.cells.toList.map fun entry => (entry.1.text, entry.2.contents.toInput))

/-- The JSON text of a sheet. -/
def toJson (s : Sheet) (layout : Layout) : String := s.toFile.write layout

/-- Types texts into the cells with the given names, one after the other. -/
def enterAll (s : Sheet) : List (String × String) → Except LoadError Sheet
  | [] => .ok s
  | (name, input) :: rest =>
    match s.enter name input with
    | .error cause => .error (.cell name cause)
    | .ok (next, _) => next.enterAll rest

/-- Marks a sheet as saved. -/
def saved (s : Sheet) : Sheet := ⟨s.cells, s.graph, false⟩

/-- The sheet that a file describes. -/
def ofFile (f : SheetFile) : Except LoadError Sheet :=
  match firstRepeated ∅ (f.members.map fun cell => CellName.normalized cell.1) with
  | some cell => .error (.duplicate cell)
  | none => (empty.enterAll f.members).map saved

/-- The sheet that a JSON text describes. -/
def ofJson (s : String) : Except LoadError Sheet :=
  match SheetFile.read? s with
  | some f => ofFile f
  | none => .error .malformed

end Sheet

end LiveSheet
