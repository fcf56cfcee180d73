import LiveSheet.Formula.Token

namespace LiveSheet

/-!
# The grammar of formulas

    sum     ::= product { ( + | - ) product }
    product ::= operand { ( * | / ) operand }
    operand ::= number | cell | ( sum )

* `Tree` — the parse trees.  A repetition is a tree that grows to the left, as the operators group.
* `Tree.tokens` — the tokens of a tree, from left to right.
* `Beginning` — the texts that a formula can begin with, cut into trees and operators.
* `isFormula_iff` — the token lists that lead to a place where a formula can end are those that have
  a parse tree.
-/

/-- What a tree can stand for; an operand binds tightest. -/
inductive Tier where
  | operand
  | product
  | sum
deriving DecidableEq

/-- The parse trees. -/
inductive Tree : Tier → Type where
  | number (value : Literal) : Tree .operand
  | cell (name : CellName) : Tree .operand
  | parens (inner : Tree .sum) : Tree .operand
  | operand (only : Tree .operand) : Tree .product
  | times (left : Tree .product) (o : Operator) (tier : o.isMultiplicative = true)
      (right : Tree .operand) : Tree .product
  | product (only : Tree .product) : Tree .sum
  | plus (left : Tree .sum) (o : Operator) (tier : o.isMultiplicative = false)
      (right : Tree .product) : Tree .sum

/-- The tokens of a tree, from left to right. -/
def Tree.tokens : {k : Tier} → Tree k → List Token
  | _, .number value => [.number value]
  | _, .cell name => [.cell name]
  | _, .parens inner => .leftParen :: (inner.tokens ++ [.rightParen])
  | _, .operand only => only.tokens
  | _, .times left o _ right => left.tokens ++ .op o :: right.tokens
  | _, .product only => only.tokens
  | _, .plus left o _ right => left.tokens ++ .op o :: right.tokens

/-! ### Trees are formulas -/

namespace Cursor

/-- Tokens lead from place to place one after the other, so a list of them may be cut anywhere. -/
theorem advance_append (c : Cursor) (ts us : List Token) :
    c.advance (ts ++ us) = (c.advance ts).bind (advance · us) := by
  induction ts generalizing c with
  | nil => rfl
  | cons t ts ih => simp only [List.cons_append, advance, ih, Option.bind_assoc]

/-- From where the first tokens lead, the others lead on. -/
theorem advance_append_of_eq {c next : Cursor} {ts us : List Token} (h : c.advance ts = some next) :
    c.advance (ts ++ us) = next.advance us := by
  rw [advance_append, h, Option.bind_some]

/-- A tree can stand where an operand can, and an operator can follow it. -/
theorem advance_tokens {k : Tier} (t : Tree k) (d : Nat) :
    advance ⟨true, d⟩ t.tokens = some ⟨false, d⟩ := by
  induction t generalizing d with
  | number value => rfl
  | cell name => rfl
  | parens inner ih => exact advance_append_of_eq (ih (d + 1))
  | operand only ih => exact ih d
  | times left o tier right ihl ihr => exact (advance_append_of_eq (ihl d)).trans (ihr d)
  | product only ih => exact ih d
  | plus left o tier right ihl ihr => exact (advance_append_of_eq (ihl d)).trans (ihr d)

end Cursor

/-! ### Formulas are trees -/

/-- How much of a segment has been taken in; a segment starts at an opening parenthesis or at the
    start of the formula. -/
inductive Progress where
  /-- Nothing. -/
  | opened
  /-- At most a sum and an addition or subtraction after it. -/
  | summed
  /-- After that, at most a product and a multiplication or division after it. -/
  | waiting
  /-- After the sum and its operator, a product. -/
  | ready

/-- The texts that a formula can begin with, by the progress in the innermost segment and the number
    of open parentheses. -/
inductive Beginning : Progress → Nat → List Token → Prop where
  | start : Beginning .opened 0 []
  | paren {d ts} : Beginning .waiting d ts → Beginning .opened (d + 1) (ts ++ [.leftParen])
  | noSum {d ts} : Beginning .opened d ts → Beginning .summed d ts
  | sum {d ts} (left : Tree .sum) {o : Operator} (tier : o.isMultiplicative = false) :
      Beginning .opened d ts → Beginning .summed d (ts ++ (left.tokens ++ [.op o]))
  | noProduct {d ts} : Beginning .summed d ts → Beginning .waiting d ts
  | product {d ts} (left : Tree .product) {o : Operator} (tier : o.isMultiplicative = true) :
      Beginning .summed d ts → Beginning .waiting d (ts ++ (left.tokens ++ [.op o]))
  | ready {d ts} (last : Tree .product) :
      Beginning .summed d ts → Beginning .ready d (ts ++ last.tokens)

namespace Beginning

variable {d : Nat} {ts : List Token}

/-- An operand makes the product at the end longer. -/
theorem operand (h : Beginning .waiting d ts) (a : Tree .operand) :
    Beginning .ready d (ts ++ a.tokens) := by
  cases h with
  | noProduct h => exact .ready (.operand a) h
  | product left tier h =>
    have hready := Beginning.ready (.times left _ tier a) h
    simpa only [Tree.tokens, List.append_assoc, List.singleton_append] using hready

/-- All that has been taken in of a segment is a sum. -/
theorem exists_sum (h : Beginning .ready d ts) :
    ∃ (before : List Token) (all : Tree .sum), Beginning .opened d before ∧
      ts = before ++ all.tokens := by
  cases h with
  | ready last h =>
    cases h with
    | noSum h => exact ⟨_, .product last, h, rfl⟩
    | sum left tier h =>
      refine ⟨_, .plus left _ tier last, h, ?_⟩
      simp only [Tree.tokens, List.append_assoc, List.singleton_append]

/-- After an operand an operator can follow, of either tier. -/
theorem op (h : Beginning .ready d ts) (o : Operator) : Beginning .waiting d (ts ++ [.op o]) := by
  cases ho : o.isMultiplicative with
  | true =>
    cases h with
    | ready last h =>
      rw [List.append_assoc]
      exact .product last ho h
  | false =>
    obtain ⟨before, all, hbefore, rfl⟩ := h.exists_sum
    rw [List.append_assoc]
    exact .noProduct (.sum all ho hbefore)

/-- An opening parenthesis begins a segment of its own. -/
theorem leftParen (h : Beginning .waiting d ts) :
    Beginning .waiting (d + 1) (ts ++ [.leftParen]) :=
  .noProduct (.noSum (.paren h))

/-- A closing parenthesis makes an operand of the segment. -/
theorem rightParen (h : Beginning .ready (d + 1) ts) :
    Beginning .ready d (ts ++ [.rightParen]) := by
  obtain ⟨before, all, hbefore, rfl⟩ := h.exists_sum
  cases hbefore with
  | paren hwaiting =>
    have hready := hwaiting.operand (.parens all)
    simpa only [Tree.tokens, List.append_assoc, List.singleton_append, List.cons_append,
      List.nil_append] using hready

/-- Outside all parentheses, a beginning that can end is a sum. -/
theorem exists_tree (h : Beginning .ready 0 ts) : ∃ t : Tree .sum, t.tokens = ts := by
  obtain ⟨before, all, hbefore, rfl⟩ := h.exists_sum
  cases hbefore with
  | start => exact ⟨all, rfl⟩

/-- The progress at a place. -/
def progressAt (place : Cursor) : Progress := if place.operandNext then .waiting else .ready

/-- A token that can stand at a place makes a beginning longer. -/
theorem step {place next : Cursor} {t : Token} (h : Beginning (progressAt place) place.depth ts)
    (hstep : place.step t = some next) :
    Beginning (progressAt next) next.depth (ts ++ [t]) := by
  obtain ⟨operandNext, d⟩ := place
  cases operandNext with
  | true =>
    -- An operand is due: a number, a name or an opening parenthesis.
    cases t with
    | number value => cases hstep; exact h.operand (.number value)
    | cell name => cases hstep; exact h.operand (.cell name)
    | leftParen => cases hstep; exact h.leftParen
    | rightParen => cases hstep
    | op o => cases hstep
  | false =>
    -- An operand has ended: an operator or a closing parenthesis, if one is open.
    cases t with
    | number value => cases hstep
    | cell name => cases hstep
    | leftParen => cases hstep
    | op o => cases hstep; exact h.op o
    | rightParen =>
      cases d with
      | zero => cases hstep
      | succ d => cases hstep; exact h.rightParen

/-- **Tokens that can follow a beginning make it longer**, one token after the other. -/
theorem advance {place next : Cursor} {us : List Token}
    (h : Beginning (progressAt place) place.depth ts) (hadv : place.advance us = some next) :
    Beginning (progressAt next) next.depth (ts ++ us) := by
  induction us generalizing place ts with
  | nil =>
    cases hadv
    rw [List.append_nil]
    exact h
  | cons u us ih =>
    obtain ⟨middle, hstep, hrest⟩ := Option.bind_eq_some_iff.1 hadv
    have hus := ih (h.step hstep) hrest
    rwa [List.append_assoc, List.singleton_append] at hus

end Beginning

/-- **A list of tokens is a formula exactly when it has a parse tree.** -/
theorem isFormula_iff {ts : List Token} : IsFormula ts ↔ ∃ t : Tree .sum, t.tokens = ts := by
  constructor
  · intro h
    have hstart : Beginning (Beginning.progressAt Cursor.start) Cursor.start.depth [] :=
      .noProduct (.noSum .start)
    exact (hstart.advance h).exists_tree
  · rintro ⟨t, rfl⟩
    exact Cursor.advance_tokens t 0

end LiveSheet
