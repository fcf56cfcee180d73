namespace LiveSheet

/-!
# What can be wrong with a formula

* `FormulaFault` — the causes, each with the texts its message shows.
* `FormulaFault.reason`, `FormulaFault.message` — the wording.
-/

/-- Why a text is not a formula. -/
inductive FormulaFault where
  /-- There is no lexeme at all. -/
  | empty
  /-- A run that is no lexeme of a formula. -/
  | invalidToken (text : String)
  /-- A numeral that is not a number. -/
  | invalidNumber (text : String)
  /-- A numeral beyond the largest double. -/
  | outOfRange (text : String)
  /-- An opening parenthesis is closed at once. -/
  | emptyParentheses
  /-- A closing parenthesis with none open. -/
  | unexpectedClose
  /-- The first lexeme is no operand. -/
  | badStart (text : String)
  /-- An operand should follow `previous`. -/
  | operandExpected (text previous : String)
  /-- An operator or a closing parenthesis should follow `previous`. -/
  | operatorExpected (text previous : String)
  /-- A parenthesis stays open. -/
  | missingClose
  /-- The last lexeme needs an operand after it. -/
  | badEnd (text : String)
deriving DecidableEq, Repr

namespace FormulaFault

/-- The wording of a cause. -/
def reason : FormulaFault → String
  | empty => "The formula cannot be empty"
  | invalidToken text => "Invalid token: " ++ text
  | invalidNumber text => "Invalid number: " ++ text
  | outOfRange text => "Number out of range: " ++ text
  | emptyParentheses => "Empty parentheses are not allowed"
  | unexpectedClose => "Mismatched parentheses: unexpected ')'"
  | badStart text => "The formula cannot start with '" ++ text ++ "'"
  | operandExpected text previous => "Unexpected '" ++ text ++ "' after '" ++ previous ++ "'"
  | operatorExpected text previous =>
    "Unexpected '" ++ text ++ "' after '" ++ previous ++ "': expected an operator or ')'"
  | missingClose => "Unbalanced parentheses: missing ')'"
  | badEnd text => "The formula cannot end with '" ++ text ++ "'"

/-- The message shown to the user. -/
def message (f : FormulaFault) : String := "Invalid formula: " ++ f.reason

end FormulaFault

end LiveSheet
