import LiveSheet.Proofs.Double.ZeroSign
import LiveSheet.Proofs.Formula.Semantics

namespace LiveSheet

/-!
# Formulas and the sign of a zero

Changing the sign of zeros that a formula reads changes its result at most in the sign of a zero: no
operator tells the zeros apart but division, and dividing by either zero is an error.

* `Arithmetic.apply_unsignZero` — one operator.
* `Formula.evaluate_unsignZero` — a formula.
-/

/-- No operator sees the sign of a zero, unless it divides by it. -/
theorem ieeeArithmetic_unsignZero {o : Operator} {y : Double}
    (h : ¬ (o = .div ∧ y.isZero = true)) (x : Double) :
    (ieeeArithmetic o x y).unsignZero
      = (ieeeArithmetic o x.unsignZero y.unsignZero).unsignZero := by
  cases o with
  | add => exact Double.unsignZero_add x y
  | sub => exact Double.unsignZero_sub x y
  | mul => exact Double.unsignZero_mul x y
  | div =>
    refine Double.unsignZero_div x ?_
    rw [← Bool.not_eq_true]
    exact fun hy => h ⟨rfl, hy⟩

/-- **An operator does not tell the zeros apart.** -/
theorem Arithmetic.apply_unsignZero (o : Operator) (x y : Double) :
    (ieeeArithmetic.apply o x y).map Double.unsignZero
      = (ieeeArithmetic.apply o x.unsignZero y.unsignZero).map Double.unsignZero := by
  simp only [apply, Double.isZero_unsignZero]
  by_cases hzero : o = .div ∧ y.isZero = true
  · rw [if_pos hzero, if_pos hzero]
  · have hvalue := ieeeArithmetic_unsignZero hzero x
    have hfinite : (ieeeArithmetic o x y).isFinite
        = (ieeeArithmetic o x.unsignZero y.unsignZero).isFinite := by
      rw [← Double.isFinite_unsignZero, hvalue, Double.isFinite_unsignZero]
    rw [if_neg hzero, if_neg hzero, hfinite]
    split
    · exact congrArg Except.ok hvalue
    · rfl

namespace Evaluation

/-- The result of going on is decided by the result so far. -/
theorem map_result_andThen {e e' : Evaluation} {next next' : Double → Evaluation}
    (h : e.result.map Double.unsignZero = e'.result.map Double.unsignZero)
    (hnext : ∀ x x', x.unsignZero = x'.unsignZero →
      (next x).result.map Double.unsignZero = (next' x').result.map Double.unsignZero) :
    (e.andThen next).result.map Double.unsignZero
      = (e'.andThen next').result.map Double.unsignZero := by
  obtain ⟨reads, result⟩ := e
  obtain ⟨reads', result'⟩ := e'
  cases result with
  | error err =>
    cases result' with
    | error err' => exact h
    | ok x' => cases h
  | ok x =>
    cases result' with
    | error err' => cases h
    | ok x' => exact hnext x x' (Except.ok.inj h)

/-- The sign of a zero operand is not seen in the result: to divide by either zero is an error. -/
theorem map_result_binary (o : Operator) {left left' right right' : Evaluation}
    (hleft : left.result.map Double.unsignZero = left'.result.map Double.unsignZero)
    (hright : right.result.map Double.unsignZero = right'.result.map Double.unsignZero) :
    (binary ieeeArithmetic o left right).result.map Double.unsignZero
      = (binary ieeeArithmetic o left' right').result.map Double.unsignZero := by
  refine map_result_andThen hleft fun x x' hx => map_result_andThen hright fun y y' hy => ?_
  show (ieeeArithmetic.apply o x y).map _ = (ieeeArithmetic.apply o x' y').map _
  rw [Arithmetic.apply_unsignZero, hx, hy, ← Arithmetic.apply_unsignZero]

end Evaluation

/-- A tree gives the same result for cells that differ in the sign of zeros only. -/
theorem Tree.evaluate_unsignZero {k : Tier} (t : Tree k) {lookup lookup' : CellName → Option Double}
    (h : ∀ name, Token.cell name ∈ t.tokens →
      (lookup name).map Double.unsignZero = (lookup' name).map Double.unsignZero) :
    (t.evaluate ieeeArithmetic lookup).result.map Double.unsignZero
      = (t.evaluate ieeeArithmetic lookup').result.map Double.unsignZero := by
  induction t with
  | number value => rfl
  | cell name =>
    -- Either neither cell has a number, or both have, up to the sign of a zero.
    have hname := h name (by simp [tokens])
    simp only [evaluate, Evaluation.ofCell]
    cases hl : lookup name with
    | none =>
      rw [hl] at hname
      rw [Option.map_eq_none_iff.1 hname.symm]
    | some v =>
      rw [hl] at hname
      obtain ⟨v', hl', hv⟩ := Option.map_eq_some_iff.1 hname.symm
      rw [hl']
      exact congrArg Except.ok hv.symm
  | parens inner ih => exact ih fun name hname => h name (by simp [tokens, hname])
  | operand only ih => exact ih h
  | times left o tier right ihl ihr =>
    exact Evaluation.map_result_binary o
      (ihl fun name hname => h name (by simp [tokens, hname]))
      (ihr fun name hname => h name (by simp [tokens, hname]))
  | product only ih => exact ih h
  | plus left o tier right ihl ihr =>
    exact Evaluation.map_result_binary o
      (ihl fun name hname => h name (by simp [tokens, hname]))
      (ihr fun name hname => h name (by simp [tokens, hname]))

/-- **A formula gives the same result for cells that differ in the sign of zeros only**, but for the
    sign of a zero. -/
theorem Formula.evaluate_unsignZero (f : Formula) {lookup lookup' : CellName → Option Double}
    (h : ∀ name ∈ f.references,
      (lookup name).map Double.unsignZero = (lookup' name).map Double.unsignZero) :
    (f.evaluate ieeeArithmetic lookup).result.map Double.unsignZero
      = (f.evaluate ieeeArithmetic lookup').result.map Double.unsignZero := by
  obtain ⟨t, ht⟩ := isFormula_iff.1 f.isFormula
  rw [evaluate_eq_of_tokens ht, evaluate_eq_of_tokens ht]
  refine t.evaluate_unsignZero fun name hname => h name ?_
  rw [mem_references, mem_mentions, ← ht]
  exact hname

end LiveSheet
