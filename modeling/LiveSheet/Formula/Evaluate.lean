import LiveSheet.Formula.Stacks

namespace LiveSheet

/-!
# Evaluating a formula

* `Evaluation` — the outcome, and the cells that were read.
* `Formula.evaluate` — runs the machine over a formula's tokens; `Machine.run_not_stuck` rules out
  the outcome that is no answer.
-/

/-- The outcome of an evaluation, with the cells that were read, in order. -/
structure Evaluation where
  reads : List CellName
  result : Except EvalError Double

/-- Evaluates a formula.  It stops at the first error, so later cells are not read. -/
def Formula.evaluate (arith : Arithmetic) (f : Formula) (lookup : CellName → Option Double) :
    Evaluation :=
  let outcome := Machine.run arith lookup Machine.empty f.tokens
  ⟨outcome.1,
    match h : outcome.2 with
    | .ok v => .ok v
    | .error (.failed e) => .error e
    | .error .stuck => absurd h (Machine.run_not_stuck Machine.empty_fits f.isFormula)⟩

end LiveSheet
