import LiveSheet.Cell.Name
import LiveSheet.Decimal.Positional
import LiveSheet.Formula.Lexeme

namespace LiveSheet

/-!
# Tokens and the shape of a formula

A formula is a list of tokens: lexemes whose names and numerals have been read.

* `Literal` — the value of a numeral, a finite double that is not negative.
* `Token` — a token; `Token.chars` writes it in its canonical form.
* `Cursor` — a place in a formula: whether an operand comes next, and how many parentheses are
  open.  `Cursor.step` moves it over one token.
* `IsFormula` — the token lists that lead from the start to a place where a formula can end.
-/

/-- The value of a numeral: a finite double that is not negative, given by its rank. -/
abbrev Literal := Fin Double.limit

/-- The double that a literal stands for. -/
def Literal.toDouble (l : Literal) : Double := .finite false l

/-- A lexeme whose name or numeral has been read. -/
inductive Token where
  | leftParen
  | rightParen
  | op (o : Operator)
  | number (value : Literal)
  | cell (name : CellName)
deriving DecidableEq

/-- The canonical text of a token. -/
def Token.chars : Token → List Char
  | .leftParen => ['(']
  | .rightParen => [')']
  | .op o => [o.symbol]
  | .number value => (Literal.toDouble value).chars
  | .cell name => name.text.toList

/-- A place between two tokens of a formula. -/
structure Cursor where
  operandNext : Bool
  depth : Nat
deriving DecidableEq, Repr

namespace Cursor

/-- The place before the first token. -/
def start : Cursor := ⟨true, 0⟩

/-- The place after the last token. -/
def finish : Cursor := ⟨false, 0⟩

/-- The place after a token, if the token can stand here. -/
def step (c : Cursor) : Token → Option Cursor
  | .number _ => if c.operandNext then some ⟨false, c.depth⟩ else none
  | .cell _ => if c.operandNext then some ⟨false, c.depth⟩ else none
  | .leftParen => if c.operandNext then some ⟨true, c.depth + 1⟩ else none
  | .op _ => if c.operandNext then none else some ⟨true, c.depth⟩
  | .rightParen =>
    if c.operandNext then none
    else match c.depth with
      | 0 => none
      | depth + 1 => some ⟨false, depth⟩

/-- The place after a list of tokens, if each of them can stand where it does. -/
def advance (c : Cursor) : List Token → Option Cursor
  | [] => some c
  | t :: ts => (c.step t).bind (advance · ts)

end Cursor

/-- Whether a list of tokens is a whole formula. -/
def IsFormula (tokens : List Token) : Prop := Cursor.start.advance tokens = some Cursor.finish

instance (tokens : List Token) : Decidable (IsFormula tokens) :=
  inferInstanceAs (Decidable (_ = _))

end LiveSheet
