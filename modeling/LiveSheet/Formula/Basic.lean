import LiveSheet.Formula.Fault
import LiveSheet.Formula.Token
import Std.Data.ExtTreeSet.Lemmas

namespace LiveSheet

/-!
# Formulas

* `Formula` — a list of tokens that is a whole formula.
* `Formula.read` — reads a text; the first lexeme that cannot stand where it does decides the fault.
* `Formula.text` — the canonical text: the tokens one after the other, names in upper case, numbers
  in their shortest form.  Two formulas are equal when their canonical texts are.
* `Formula.mentions`, `Formula.references` — the cells a formula refers to.
-/

/-- A formula; it has no token that the grammar does not allow. -/
structure Formula where
  tokens : List Token
  isFormula : IsFormula tokens

namespace Lexeme

/-- The token that a lexeme stands for. -/
def token (l : Lexeme) : Except FormulaFault Token :=
  match l with
  | .leftParen => .ok .leftParen
  | .rightParen => .ok .rightParen
  | .op o => .ok (.op o)
  | .name chars =>
    match CellName.ofText? (String.ofList chars) with
    | some found => .ok (.cell found)
    | none => .error (.invalidToken l.text)
  | .number chars =>
    match Double.read chars with
    | none => .error (.invalidNumber l.text)
    | some (.finite _ rank) => .ok (.number rank)
    | some _ => .error (.outOfRange l.text)
  | .invalid _ => .error (.invalidToken l.text)

end Lexeme

namespace Formula

/-! ### Reading -/

/-- The text of the lexeme before a place, empty at the start. -/
def previousText (previous : Option Lexeme) : String := (previous.map Lexeme.text).getD ""

/-- The fault of a lexeme that cannot stand at a place. -/
def faultAt (place : Cursor) (previous : Option Lexeme) (l : Lexeme) : FormulaFault :=
  if place.operandNext then
    match previous with
    | none => .badStart l.text
    | some p =>
      if l = .rightParen ∧ p = .leftParen then .emptyParentheses
      else .operandExpected l.text p.text
  else if l = .rightParen then .unexpectedClose
  else .operatorExpected l.text (previousText previous)

/-- The fault of a formula that ends at a place, if it cannot end there. -/
def faultAtEnd (place : Cursor) (previous : Option Lexeme) : Option FormulaFault :=
  if place.depth ≠ 0 then some .missingClose
  else if place.operandNext then some (.badEnd (previousText previous))
  else none

/-- Reads the lexemes from a place on. -/
def readFrom (place : Cursor) (previous : Option Lexeme) :
    List Lexeme → Except FormulaFault (List Token)
  | [] =>
    match faultAtEnd place previous with
    | some fault => .error fault
    | none => .ok []
  | l :: rest =>
    match l.token with
    | .error fault => .error fault
    | .ok t =>
      match place.step t with
      | none => .error (faultAt place previous l)
      | some next =>
        match readFrom next (some l) rest with
        | .error fault => .error fault
        | .ok ts => .ok (t :: ts)

/-- Tokens that are read stand where tokens of their kind may stand, up to the end of a formula. -/
theorem advance_of_readFrom {ls : List Lexeme} :
    ∀ {place : Cursor} {previous : Option Lexeme} {ts : List Token},
      readFrom place previous ls = .ok ts → place.advance ts = some Cursor.finish := by
  -- the place and the lexeme before it change from lexeme to lexeme
  induction ls with
  | nil =>
    intro place previous ts h
    simp only [readFrom, faultAtEnd] at h
    split at h
    · cases h
    · next hnone =>
      cases h
      -- no fault at the end: an operand was read and no parenthesis is open
      obtain ⟨operandNext, depth⟩ := place
      cases operandNext <;> cases depth <;> simp_all [Cursor.advance, Cursor.finish]
  | cons l rest ih =>
    intro place previous ts h
    simp only [readFrom] at h
    split at h
    · cases h
    · split at h
      · cases h
      · next hstep =>
        split at h
        · cases h
        · next hrest =>
          cases h
          -- the token was accepted here, and the rest from the next place on
          simp only [Cursor.advance, hstep, Option.bind_some]
          exact ih hrest

/-- Reads a formula. -/
def read (text : String) : Except FormulaFault Formula :=
  match lexemes text.toList with
  | [] => .error .empty
  | l :: rest =>
    match h : readFrom Cursor.start none (l :: rest) with
    | .error fault => .error fault
    | .ok tokens => .ok ⟨tokens, advance_of_readFrom h⟩

/-! ### Canonical text -/

/-- The characters of the canonical text. -/
def chars (f : Formula) : List Char := f.tokens.flatMap Token.chars

/-- The canonical text. -/
def text (f : Formula) : String := String.ofList f.chars

instance : BEq Formula := ⟨fun f g => f.text == g.text⟩

instance : Hashable Formula := ⟨fun f => hash f.text⟩

instance : Repr Formula := ⟨fun f _ => f.text⟩

/-! ### Variables -/

/-- The cell that a token names. -/
def mention? : Token → Option CellName
  | .cell name => some name
  | _ => none

/-- The cells a formula refers to, in the order of its text. -/
def mentions (f : Formula) : List CellName := f.tokens.filterMap mention?

/-- The set of cells a formula refers to. -/
def references (f : Formula) : Std.ExtTreeSet CellName := Std.ExtTreeSet.ofList f.mentions

end Formula

end LiveSheet
