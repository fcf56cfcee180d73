import LiveSheet.Cell.Contents
import LiveSheet.Graph.Dependency

namespace LiveSheet

/-!
# Sheets

A sheet stores its non-empty cells, the dependencies between them and whether it has unsaved edits.

* `Sheet` — the state.  The graph has an edge from each cell that a formula refers to, to the cell
  that holds the formula.
* `Sheet.lookup` — the number that a formula reads from a cell.
* `Sheet.contentsOf`, `Sheet.valueOf`, `Sheet.directDependents` — queries; a cell that is not stored
  holds and shows the empty text.
* `EditError` — why an edit is refused.
-/

/-- Cells with a name each. -/
abbrev Cells := Std.ExtTreeMap CellName Cell

/-- A sheet of named cells with formulas that are kept up to date. -/
structure Sheet where
  /-- The non-empty cells. -/
  cells : Cells
  /-- The dependencies between cells. -/
  graph : DependencyGraph CellName
  /-- Set by every edit, cleared by saving and loading. -/
  changed : Bool

/-- Why an edit is refused. -/
inductive EditError where
  /-- The text names no cell. -/
  | invalidName (given : String)
  /-- The text after the equals sign is no formula. -/
  | formula (fault : FormulaFault)
  /-- The cell would depend on itself, along the given path. -/
  | circular (path : List CellName)
deriving DecidableEq

/-- The message shown to the user. -/
def EditError.message : EditError → String
  | invalidName given => CellName.invalidMessage given
  | formula fault => fault.message
  | circular path => cycleMessage (path.map CellName.text)

namespace Cells

/-- The number that a formula reads from a cell.  Absent cells, texts and errors have none. -/
def number? (cells : Cells) (name : CellName) : Option Double :=
  cells[name]?.bind fun cell => cell.value.number?

/-- The formula that a cell holds, if it holds one. -/
def formula? (cells : Cells) (name : CellName) : Option Formula := cells[name]?.bind Cell.formula?

/-- Evaluates the formula of a cell and stores its value; other cells are left as they are. -/
def refresh (cells : Cells) (name : CellName) : Cells :=
  match cells.formula? name with
  | some f =>
    cells.insert name
      ⟨.formula f, Value.ofResult (f.evaluate ieeeArithmetic cells.number?).result⟩
  | none => cells

/-- Evaluates the formulas of the given cells one after the other. -/
def recalculate (cells : Cells) (order : List CellName) : Cells := order.foldl refresh cells

end Cells

namespace Sheet

/-- The sheet without cells. -/
def empty : Sheet := ⟨∅, ∅, false⟩

instance : Inhabited Sheet := ⟨empty⟩

/-- The number of non-empty cells. -/
def size (s : Sheet) : Nat := s.cells.size

/-- The contents of a cell. -/
def contentsOf (s : Sheet) (name : CellName) : Contents :=
  match s.cells[name]? with
  | some cell => cell.contents
  | none => .text ""

/-- The value of a cell. -/
def valueOf (s : Sheet) (name : CellName) : Value :=
  match s.cells[name]? with
  | some cell => cell.value
  | none => .empty

/-- The cells whose formulas refer to a cell, in order. -/
def directDependents (s : Sheet) (name : CellName) : List CellName :=
  (s.graph.dependents name).toList

/-- The names of the non-empty cells, in order. -/
def names (s : Sheet) : List CellName := s.cells.keys

end Sheet

end LiveSheet
