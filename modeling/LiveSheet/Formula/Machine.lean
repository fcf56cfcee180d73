import LiveSheet.Double.Arithmetic
import LiveSheet.Formula.Basic

namespace LiveSheet

/-!
# The machine that evaluates a formula

One scan from left to right over the tokens, with a stack of operators that wait and a stack of
values.  A multiplication or division is applied as soon as its right operand is known.  An addition
or subtraction waits for the next operator of its tier, a closing parenthesis or the end.  With two
tiers this groups every operator to the left.

* `EvalError` — why a formula has no number.
* `Arithmetic` — the meaning of the operators; `ieeeArithmetic` is the one in use.
* `Machine` — the two stacks; `Machine.step` takes in a token, `Machine.run` a list of tokens.
-/

/-- Why a formula has no number. -/
inductive EvalError where
  | divisionByZero
  | undefinedVariable (cell : CellName)
  | overflow
deriving DecidableEq

/-- The wording of an evaluation error. -/
def EvalError.reason : EvalError → String
  | divisionByZero => "Division by zero"
  | undefinedVariable cell => "Undefined variable: " ++ cell.text
  | overflow => "Numeric overflow"

/-- A meaning of the four operators on doubles. -/
abbrev Arithmetic := Operator → Double → Double → Double

/-- The operators as rounded operations on doubles. -/
def ieeeArithmetic : Arithmetic
  | .add => Double.add
  | .sub => Double.sub
  | .mul => Double.mul
  | .div => Double.div

/-- Applies an operator.  Division by a zero of either sign is an error, and so is a result that is
    not finite. -/
def Arithmetic.apply (arith : Arithmetic) (o : Operator) (left right : Double) :
    Except EvalError Double :=
  if o = .div ∧ right.isZero then .error .divisionByZero
  else if (arith o left right).isFinite then .ok (arith o left right)
  else .error .overflow

/-! ### The machine -/

/-- What waits on the operator stack. -/
inductive Pending where
  | op (o : Operator)
  | paren
deriving DecidableEq

/-- Operators and parentheses that wait, and values; the top of a stack is its head. -/
structure Machine where
  pending : List Pending
  values : List Double

/-- Why the machine stops. -/
inductive Halt where
  /-- It would take from an empty stack, or a parenthesis for an operator. -/
  | stuck
  /-- The formula has no number. -/
  | failed (e : EvalError)
deriving DecidableEq

namespace Machine

/-- The empty machine. -/
def empty : Machine := ⟨[], []⟩

/-- Applies the waiting operator on top to the two values on top. -/
def reduce (arith : Arithmetic) : Machine → Except Halt Machine
  | ⟨.op o :: pending, right :: left :: values⟩ =>
    match arith.apply o left right with
    | .ok v => .ok ⟨pending, v :: values⟩
    | .error e => .error (.failed e)
  | _ => .error .stuck

/-- Applies the operator on top if it is of the given tier. -/
def reduceTier (arith : Arithmetic) (multiplicative : Bool) (m : Machine) : Except Halt Machine :=
  match m.pending with
  | .op o :: _ => if o.isMultiplicative = multiplicative then m.reduce arith else .ok m
  | _ => .ok m

/-- Takes in an operand; a multiplication or division that waits for it is applied at once. -/
def operand (arith : Arithmetic) (m : Machine) (v : Double) : Except Halt Machine :=
  reduceTier arith true ⟨m.pending, v :: m.values⟩

/-- Takes the opening parenthesis off the operator stack. -/
def open? (m : Machine) : Except Halt Machine :=
  match m.pending with
  | .paren :: pending => .ok ⟨pending, m.values⟩
  | _ => .error .stuck

/-- The machine after one token. -/
def step (arith : Arithmetic) (lookup : CellName → Option Double) (m : Machine) :
    Token → Except Halt Machine
  | .number value => m.operand arith (Literal.toDouble value)
  | .cell name =>
    match lookup name with
    | some v => m.operand arith v
    | none => .error (.failed (.undefinedVariable name))
  | .op o =>
    if o.isMultiplicative then .ok ⟨.op o :: m.pending, m.values⟩
    else do
      let m ← m.reduceTier arith false
      .ok ⟨.op o :: m.pending, m.values⟩
  | .leftParen => .ok ⟨.paren :: m.pending, m.values⟩
  | .rightParen => do
    let m ← m.reduceTier arith false
    let m ← m.open?
    m.reduceTier arith true

/-- The number that remains when all tokens are taken in. -/
def finish (arith : Arithmetic) (m : Machine) : Except Halt Double := do
  let m ← m.reduceTier arith false
  match m.values with
  | v :: _ => .ok v
  | [] => .error .stuck

/-- Takes in a list of tokens; with the outcome come the cells that were read, in order. -/
def run (arith : Arithmetic) (lookup : CellName → Option Double) (m : Machine) :
    List Token → List CellName × Except Halt Double
  | [] => ([], m.finish arith)
  | t :: ts =>
    let reads := (Formula.mention? t).toList
    match m.step arith lookup t with
    | .error halt => (reads, .error halt)
    | .ok next =>
      let rest := run arith lookup next ts
      (reads ++ rest.1, rest.2)

end Machine

end LiveSheet
