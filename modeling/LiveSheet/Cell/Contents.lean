import LiveSheet.Formula.Evaluate

namespace LiveSheet

/-!
# What a cell holds and what it shows

* `Contents` — what was typed: a number, a text or a formula.
* `Contents.ofInput` — reads typed text.  A number that is finite comes first, then a formula after
  `=`, and all else is text as it stands.
* `Contents.toInput` — the text that is typed to get the contents.
* `Value` — what a cell shows: a number, a text or an evaluation error.
* `Cell` — the two together.
-/

/-- What was typed into a cell. -/
inductive Contents where
  | number (value : Double)
  | text (s : String)
  | formula (f : Formula)

namespace Contents

/-- The finite number that a text stands for, with blank ends ignored. -/
def number? (input : String) : Option Double :=
  match Double.read (trim input.toList) with
  | some v => if v.isFinite then some v else none
  | none => none

/-- Reads typed text; an empty text stands for no contents. -/
def ofInput (input : String) : Except FormulaFault (Option Contents) :=
  match input.toList with
  | [] => .ok none
  | c :: rest =>
    match number? input with
    | some v => .ok (some (.number v))
    | none =>
      if c = '=' then (Formula.read (String.ofList rest)).map (some ∘ .formula)
      else .ok (some (.text input))

/-- The text that stands for contents when it is typed. -/
def toInput : Contents → String
  | .number v => v.text
  | .text s => s
  | .formula f => "=" ++ f.text

/-- The cells that contents refer to. -/
def references : Contents → Std.ExtTreeSet CellName
  | .formula f => f.references
  | _ => ∅

/-- Whether contents are the same; numbers are compared as numbers, formulas by their text. -/
def same : Contents → Contents → Bool
  | .number v, .number w => v.equals w
  | .text s, .text t => s == t
  | .formula f, .formula g => f == g
  | _, _ => false

end Contents

/-- What a cell shows. -/
inductive Value where
  | number (value : Double)
  | text (s : String)
  | error (e : EvalError)
deriving DecidableEq

namespace Value

/-- The value of a cell that holds nothing. -/
def empty : Value := .text ""

/-- The number that a value is, if it is one. -/
def number? : Value → Option Double
  | .number v => some v
  | _ => none

/-- The value that a result of an evaluation gives. -/
def ofResult : Except EvalError Double → Value
  | .ok v => .number v
  | .error e => .error e

/-- The text a value is shown with. -/
def display : Value → String
  | .number v => v.text
  | .text s => s
  | .error e => "#ERR: " ++ e.reason

end Value

/-- A cell: what it holds and what it shows. -/
structure Cell where
  contents : Contents
  value : Value

namespace Cell

/-- A cell with new contents.  A formula shows nothing until it is evaluated. -/
def ofContents : Contents → Cell
  | .number v => ⟨.number v, .number v⟩
  | .text s => ⟨.text s, .text s⟩
  | .formula f => ⟨.formula f, .empty⟩

/-- The formula that a cell holds, if it holds one. -/
def formula? (c : Cell) : Option Formula :=
  match c.contents with
  | .formula f => some f
  | _ => none

end Cell

end LiveSheet
