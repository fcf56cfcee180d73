import LiveSheet.Cell.Contents
import LiveSheet.Proofs.Formula.Semantics

namespace LiveSheet

/-!
# A formula never evaluates to an infinity

The result of every operator is looked at, literals are finite from the start, and what is left is a
formula that hands on the number of a single cell.  So only the numbers that are read matter, and
not what the operators compute.

* `Tree.isFinite_evaluate`, `Formula.isFinite_evaluate` — from finite numbers a finite number.
* `Contents.shownBy` — the value of contents for any meaning of the operators.
* `Contents.isFinite_shownBy` — finite contents stand for a finite number, if for any.
-/

variable {arith : Arithmetic} {lookup lookup' : CellName → Option Double} {v : Double}

/-- An operator gives a finite number or an error. -/
theorem Arithmetic.isFinite_apply {o : Operator} {left right : Double}
    (h : arith.apply o left right = .ok v) : v.isFinite = true := by
  unfold apply at h
  split at h
  · cases h
  · split at h
    · next hfinite =>
      cases h
      exact hfinite
    · cases h

namespace Evaluation

/-- A number comes out in the end only if one comes out before. -/
theorem exists_of_andThen {e : Evaluation} {next : Double → Evaluation}
    (h : (e.andThen next).result = .ok v) : ∃ w, e.result = .ok w ∧ (next w).result = .ok v := by
  unfold andThen at h
  split at h
  · next w hw => exact ⟨w, hw, h⟩
  · cases h

/-- What an operator gives is finite, because an overflow is an error. -/
theorem isFinite_binary {o : Operator} {left right : Evaluation}
    (h : (binary arith o left right).result = .ok v) : v.isFinite = true := by
  obtain ⟨x, -, hx⟩ := exists_of_andThen h
  obtain ⟨y, -, hy⟩ := exists_of_andThen hx
  exact Arithmetic.isFinite_apply hy

end Evaluation

/-- A tree without operators is a number or a cell, in parentheses or not; with an operator it does
    not even matter what is read. -/
theorem Tree.isFinite_evaluate {k : Tier} (t : Tree k)
    (h : ∀ name, Token.cell name ∈ t.tokens → ∀ w, lookup name = some w → w.isFinite = true)
    (hv : (t.evaluate arith lookup).result = .ok v) : v.isFinite = true := by
  induction t with
  | number value =>
    -- A literal is finite by its type.
    cases hv
    rfl
  | cell name =>
    -- The only place where the cells matter.
    simp only [evaluate, Evaluation.ofCell] at hv
    split at hv
    · next w hw =>
      cases hv
      exact h name List.mem_cons_self v hw
    · cases hv
  | parens inner ih =>
    exact ih (fun name hname => h name
      (List.mem_cons_of_mem _ (List.mem_append_left _ hname))) hv
  | operand only ih => exact ih h hv
  -- An operator has a finite number as its result, or an error.
  | times left o tier right => exact Evaluation.isFinite_binary hv
  | product only ih => exact ih h hv
  | plus left o tier right => exact Evaluation.isFinite_binary hv

/-- **From finite numbers a finite number.**  If the numbers that a formula reads are finite, so is
    its own, whatever the operators compute. -/
theorem Formula.isFinite_evaluate {f : Formula}
    (h : ∀ name ∈ f.references, ∀ w, lookup name = some w → w.isFinite = true)
    (hv : (f.evaluate arith lookup).result = .ok v) : v.isFinite = true := by
  obtain ⟨t, ht⟩ := isFormula_iff.1 f.isFormula
  rw [evaluate_eq_of_tokens ht] at hv
  refine t.isFinite_evaluate (fun name hname => h name ?_) hv
  rw [ht] at hname
  exact mem_references.2 (mem_mentions.2 hname)

namespace Contents

/-- The value that contents stand for, when the operators have the given meaning and `lookup` gives
    the number that each cell shows. -/
def shownBy (arith : Arithmetic) (lookup : CellName → Option Double) : Contents → Value
  | .number v => .number v
  | .text s => .text s
  | .formula f => Value.ofResult (f.evaluate arith lookup).result

/-- Contents stand for the same value when the cells they refer to show the same numbers. -/
theorem shownBy_congr {c : Contents} (h : ∀ name ∈ c.references, lookup name = lookup' name) :
    c.shownBy arith lookup = c.shownBy arith lookup' := by
  cases c with
  | number v => rfl
  | text s => rfl
  | formula f => exact congrArg (Value.ofResult ∘ Evaluation.result) (f.evaluate_congr h)

/-- **Finite contents stand for a finite number**, if for any, when those they read are finite. -/
theorem isFinite_shownBy {c : Contents} (hc : ∀ w, c = .number w → w.isFinite = true)
    (h : ∀ name ∈ c.references, ∀ w, lookup name = some w → w.isFinite = true)
    (hv : c.shownBy arith lookup = .number v) : v.isFinite = true := by
  cases c with
  | number w =>
    cases hv
    exact hc v rfl
  | text s => cases hv
  | formula f =>
    -- An error is no number, so only the formulas with a result are left.
    simp only [shownBy] at hv
    cases hresult : (f.evaluate arith lookup).result with
    | error e =>
      rw [hresult] at hv
      cases hv
    | ok w =>
      rw [hresult] at hv
      cases hv
      exact f.isFinite_evaluate h hresult

end Contents

end LiveSheet
