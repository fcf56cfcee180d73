namespace LiveSheet

/-!
# The four operators

Addition and subtraction form one tier, multiplication and division the tier that binds tighter.
-/

/-- An arithmetic operator. -/
inductive Operator where
  | add
  | sub
  | mul
  | div
deriving DecidableEq, Repr

namespace Operator

/-- The character an operator is written with. -/
def symbol : Operator → Char
  | add => '+'
  | sub => '-'
  | mul => '*'
  | div => '/'

/-- The operator that a character stands for. -/
def ofSymbol? (c : Char) : Option Operator :=
  if c = '+' then some add
  else if c = '-' then some sub
  else if c = '*' then some mul
  else if c = '/' then some div
  else none

/-- Whether an operator belongs to the tier that binds tighter. -/
def isMultiplicative : Operator → Bool
  | add => false
  | sub => false
  | mul => true
  | div => true

/-- Every operator is found by its symbol. -/
theorem ofSymbol?_symbol (o : Operator) : ofSymbol? o.symbol = some o := by
  cases o <;> rfl

/-- A character by which an operator is found is its symbol. -/
theorem eq_symbol_of_ofSymbol? {c : Char} {o : Operator} (h : ofSymbol? c = some o) :
    c = o.symbol := by
  unfold ofSymbol? at h
  split at h
  · cases h; assumption
  split at h
  · cases h; assumption
  split at h
  · cases h; assumption
  split at h
  · cases h; assumption
  · cases h

end Operator

end LiveSheet
