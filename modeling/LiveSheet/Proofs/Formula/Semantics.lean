import LiveSheet.Proofs.Formula.Grammar
import LiveSheet.Proofs.Formula.Reads

namespace LiveSheet

/-!
# What a formula means

A parse tree is evaluated from left to right, each operator after its operands, and the first error
ends the evaluation.  The machine puts off an addition or subtraction until the next token that is
not of a tighter tier.  Nothing is read and nothing else is computed in between, so the machine
finds the same number or the same error, after reading the same cells.

* `Tree.evaluate` — the value of a tree.
* `Tree.Runs` — what the machine does with the tokens of a tree, whatever follows them.
* `Tree.runs` — it does this for every tree.
* `Formula.evaluate_parse` — the machine evaluates a formula as its parse tree.
-/

/-! ### Evaluating a tree -/

namespace Evaluation

/-- Goes on with the number of an evaluation, if there is one. -/
def andThen (e : Evaluation) (next : Double → Evaluation) : Evaluation :=
  match e.result with
  | .ok v => ⟨e.reads ++ (next v).reads, (next v).result⟩
  | .error err => ⟨e.reads, .error err⟩

/-- Reads a cell. -/
def ofCell (lookup : CellName → Option Double) (name : CellName) : Evaluation :=
  match lookup name with
  | some v => ⟨[name], .ok v⟩
  | none => ⟨[name], .error (.undefinedVariable name)⟩

/-- Applies an operator to the numbers of two evaluations, the left one first. -/
def binary (arith : Arithmetic) (o : Operator) (left right : Evaluation) : Evaluation :=
  left.andThen fun x => right.andThen fun y => ⟨[], arith.apply o x y⟩

end Evaluation

/-- The value of a tree. -/
def Tree.evaluate (arith : Arithmetic) (lookup : CellName → Option Double) :
    {k : Tier} → Tree k → Evaluation
  | _, .number value => ⟨[], .ok value.toDouble⟩
  | _, .cell name => .ofCell lookup name
  | _, .parens inner => inner.evaluate arith lookup
  | _, .operand only => only.evaluate arith lookup
  | _, .times left o _ right =>
    .binary arith o (left.evaluate arith lookup) (right.evaluate arith lookup)
  | _, .product only => only.evaluate arith lookup
  | _, .plus left o _ right =>
    .binary arith o (left.evaluate arith lookup) (right.evaluate arith lookup)

namespace Machine

variable {arith : Arithmetic} {lookup : CellName → Option Double}

/-! ### Runs that go on after an evaluation -/

/-- The outcome of a run that goes on with the number of an evaluation. -/
def resume (e : Evaluation) (next : Double → List CellName × Except Halt Double) :
    List CellName × Except Halt Double :=
  match e.result with
  | .ok v => (e.reads ++ (next v).1, (next v).2)
  | .error err => (e.reads, .error (.failed err))

/-- The outcome of going on with a machine, if a step gives one. -/
def proceed (next : Machine → List CellName × Except Halt Double) :
    Except Halt Machine → List CellName × Except Halt Double
  | .ok m => next m
  | .error halt => ([], .error halt)

/-- Two steps in a row are gone on from one after the other. -/
theorem proceed_bind (next : Machine → List CellName × Except Halt Double)
    (r : Except Halt Machine) (f : Machine → Except Halt Machine) :
    proceed next (r >>= f) = proceed (fun m => proceed next (f m)) r := by
  cases r with
  | error halt => rfl
  | ok m => rfl

/-- Two evaluations in a row are gone on from one after the other, with the reads of both. -/
theorem resume_andThen (e : Evaluation) (middle : Double → Evaluation)
    (next : Double → List CellName × Except Halt Double) :
    resume (e.andThen middle) next = resume e fun v => resume (middle v) next := by
  obtain ⟨reads, result⟩ := e
  cases result with
  | error err => rfl
  | ok v =>
    simp only [Evaluation.andThen, resume]
    cases (middle v).result with
    | error err => rfl
    | ok w => exact congrArg (Prod.mk · (next w).2) (List.append_assoc _ _ _)

/-- A token that reads no cell only makes a step. -/
theorem run_cons (m : Machine) (t : Token) (ts : List Token) (hread : Formula.mention? t = none) :
    run arith lookup m (t :: ts) = proceed (run arith lookup · ts) (m.step arith lookup t) := by
  simp only [run, hread, Option.toList_none, List.nil_append]
  cases m.step arith lookup t with
  | error halt => rfl
  | ok next => rfl

/-- A cell is read, and its number is an operand. -/
theorem run_cell (m : Machine) (name : CellName) (ts : List Token) :
    run arith lookup m (.cell name :: ts)
      = resume (.ofCell lookup name) fun v =>
          proceed (run arith lookup · ts) (m.operand arith v) := by
  have hread : Formula.mention? (.cell name) = some name := rfl
  simp only [run, hread, Option.toList_some, step, Evaluation.ofCell]
  cases lookup name with
  | none => rfl
  | some v =>
    cases hm : m.operand arith v with
    | error halt => simp only [resume, proceed, hm, List.append_nil]
    | ok next => simp only [resume, proceed, hm]

/-! ### Operators that wait -/

/-- No operator of a tier is on top. -/
def Settled (tier : Bool) (pending : List Pending) : Prop :=
  ∀ (arith : Arithmetic) (values : List Double),
    reduceTier arith tier ⟨pending, values⟩ = .ok ⟨pending, values⟩

/-- On an empty stack no operator waits. -/
theorem settled_nil (tier : Bool) : Settled tier [] := fun _ _ => rfl

/-- On top of a parenthesis no operator waits. -/
theorem settled_paren (tier : Bool) (pending : List Pending) : Settled tier (.paren :: pending) :=
  fun _ _ => rfl

/-- An operator of the other tier hides those below it. -/
theorem settled_op {tier : Bool} {o : Operator} (ho : o.isMultiplicative ≠ tier)
    (pending : List Pending) : Settled tier (.op o :: pending) :=
  fun _ values => reduceTier_other ho pending values

/-- Applying the operator on top takes it off. -/
theorem pending_of_reduceTier {tier : Bool} {o : Operator} (ho : o.isMultiplicative = tier)
    {pending : List Pending} {left right : Double} {values : List Double} {m : Machine}
    (h : reduceTier arith tier ⟨.op o :: pending, right :: left :: values⟩ = .ok m) :
    m.pending = pending := by
  simp only [reduceTier, ho, if_true, reduce] at h
  cases happly : arith.apply o left right with
  | error err => rw [happly] at h; cases h
  | ok v => rw [happly] at h; cases h; rfl

/-- A run goes on with the result of the operator on top. -/
theorem proceed_reduceTier {tier : Bool} {o : Operator} (ho : o.isMultiplicative = tier)
    (pending : List Pending) (left right : Double) (values : List Double)
    (next : Machine → List CellName × Except Halt Double) :
    proceed next (reduceTier arith tier ⟨.op o :: pending, right :: left :: values⟩)
      = resume ⟨[], arith.apply o left right⟩ fun v => next ⟨pending, v :: values⟩ := by
  simp only [reduceTier, ho, if_true, reduce]
  cases arith.apply o left right with
  | error err => rfl
  | ok v => rfl

/-- What follows a whole sum: an addition or subtraction, a closing parenthesis or the end. -/
def EndsSum : List Token → Prop
  | [] => True
  | .rightParen :: _ => True
  | .op o :: _ => o.isMultiplicative = false
  | _ => False

/-- What follows a sum first applies the addition or subtraction that waits. -/
theorem exists_run_eq_proceed (arith : Arithmetic) (lookup : CellName → Option Double)
    {ts : List Token} (hends : EndsSum ts) :
    ∃ next, ∀ m : Machine, run arith lookup m ts = proceed next (m.reduceTier arith false) := by
  cases ts with
  | nil =>
    -- with no operators left, finishing gives the value on top
    refine ⟨fun m => ([], finish arith ⟨[], m.values⟩), fun m => ?_⟩
    rw [run, finish]
    cases m.reduceTier arith false with
    | error halt => rfl
    | ok m' => rfl
  | cons t ts =>
    cases t with
    | rightParen => exact ⟨_, fun m => (run_cons m .rightParen ts rfl).trans (proceed_bind _ _ _)⟩
    | op o =>
      have hstep : ∀ m : Machine, m.step arith lookup (.op o)
          = m.reduceTier arith false >>= fun r => .ok ⟨.op o :: r.pending, r.values⟩ := fun m => by
        rw [step, if_neg (Bool.eq_false_iff.1 hends)]
      exact ⟨_, fun m => (run_cons m (.op o) ts rfl).trans
        ((congrArg _ (hstep m)).trans (proceed_bind _ _ _))⟩
    | leftParen => cases hends
    | number value => cases hends
    | cell name => cases hends

/-- It makes no difference to apply it before, if no other is below it. -/
theorem run_of_endsSum {ts : List Token} (hends : EndsSum ts) {m : Machine}
    (hm : ∀ m', m.reduceTier arith false = .ok m' → Settled false m'.pending) :
    run arith lookup m ts = proceed (run arith lookup · ts) (m.reduceTier arith false) := by
  obtain ⟨next, hnext⟩ := exists_run_eq_proceed arith lookup hends
  rw [hnext m]
  cases hreduce : m.reduceTier arith false with
  | error halt => rfl
  | ok m' =>
    -- a second time there is nothing to apply
    have hsame : m'.reduceTier arith false = .ok m' := hm m' hreduce arith m'.values
    rw [proceed, proceed, hnext m', hsame, proceed]

end Machine

/-! ### The machine on the tokens of a tree -/

open Machine in
/-- What the machine does with the tokens of a tree, whatever follows them.  An operand is taken in.
    The value of a product is put on the values, if no multiplication or division waits, and that of
    a sum, if no operator waits and the sum goes no further. -/
def Tree.Runs (arith : Arithmetic) (lookup : CellName → Option Double) :
    {k : Tier} → Tree k → Prop
  | .operand, t => ∀ (m : Machine) (rest : List Token),
    run arith lookup m (t.tokens ++ rest)
      = resume (t.evaluate arith lookup) fun v =>
          proceed (run arith lookup · rest) (m.operand arith v)
  | .product, t => ∀ (pending : List Pending) (values : List Double) (rest : List Token),
    Settled true pending → run arith lookup ⟨pending, values⟩ (t.tokens ++ rest)
      = resume (t.evaluate arith lookup) fun v => run arith lookup ⟨pending, v :: values⟩ rest
  | .sum, t => ∀ (pending : List Pending) (values : List Double) (rest : List Token),
    Settled true pending → Settled false pending → EndsSum rest →
      run arith lookup ⟨pending, values⟩ (t.tokens ++ rest)
        = resume (t.evaluate arith lookup) fun v => run arith lookup ⟨pending, v :: values⟩ rest

open Machine in
/-- **The machine evaluates every tree.** -/
theorem Tree.runs (arith : Arithmetic) (lookup : CellName → Option Double) {k : Tier} (t : Tree k) :
    t.Runs arith lookup := by
  induction t with
  | number value =>
    intro m rest
    rw [Tree.tokens, List.singleton_append, run_cons m _ rest rfl]
    rfl
  | cell name => exact fun m rest => run_cell m name rest
  | parens inner ih =>
    intro m rest
    have hinner := ih (.paren :: m.pending) m.values (.rightParen :: rest) (settled_paren true _)
      (settled_paren false _) trivial
    have htokens : (Tree.parens inner).tokens ++ rest
        = .leftParen :: (inner.tokens ++ .rightParen :: rest) := by
      simp only [Tree.tokens, List.cons_append, List.append_assoc, List.nil_append]
    rw [htokens, run_cons m _ _ rfl]
    refine hinner.trans (congrArg (resume _) (funext fun v => ?_))
    -- the closing parenthesis takes the value in as an operand
    exact run_cons _ .rightParen rest rfl
  | operand only ih =>
    intro pending values rest hpending
    refine (ih ⟨pending, values⟩ rest).trans (congrArg (resume _) (funext fun v => ?_))
    rw [Machine.operand, hpending]
    rfl
  | times left o tier right ihl ihr =>
    intro pending values rest hpending
    rw [Tree.tokens, List.append_assoc, ihl pending values _ hpending, Tree.evaluate,
      Evaluation.binary, resume_andThen]
    refine congrArg (resume _) (funext fun x => ?_)
    have hstep : (⟨pending, x :: values⟩ : Machine).step arith lookup (.op o)
        = .ok ⟨.op o :: pending, x :: values⟩ := by rw [step, if_pos tier]
    rw [List.cons_append, run_cons _ _ _ rfl, hstep, proceed, ihr, resume_andThen]
    exact congrArg (resume _) (funext fun y => proceed_reduceTier tier pending x y values _)
  | product only ih =>
    intro pending values rest hpending _ _
    exact ih pending values rest hpending
  | plus left o tier right ihl ihr =>
    intro pending values rest hpending hopened hends
    have hop : EndsSum (.op o :: (right.tokens ++ rest)) := tier
    rw [Tree.tokens, List.append_assoc, List.cons_append,
      ihl pending values _ hpending hopened hop, Tree.evaluate, Evaluation.binary, resume_andThen]
    refine congrArg (resume _) (funext fun x => ?_)
    have hstep : (⟨pending, x :: values⟩ : Machine).step arith lookup (.op o)
        = .ok ⟨.op o :: pending, x :: values⟩ := by
      rw [step, if_neg (Bool.eq_false_iff.1 tier), hopened]
      rfl
    have hwaits : Settled true (.op o :: pending) :=
      settled_op (by rw [tier]; exact Bool.false_ne_true) pending
    rw [run_cons _ _ _ rfl, hstep, proceed, ihr _ _ rest hwaits, resume_andThen]
    refine congrArg (resume _) (funext fun y => ?_)
    -- what follows the sum applies the operator before anything else happens
    rw [run_of_endsSum hends, proceed_reduceTier tier]
    intro m' hm'
    rw [pending_of_reduceTier tier hm']
    exact hopened

/-! ### The machine on a formula -/

/-- A formula is evaluated as any of its parse trees. -/
theorem Formula.evaluate_eq_of_tokens {f : Formula} {t : Tree .sum} (h : t.tokens = f.tokens)
    (arith : Arithmetic) (lookup : CellName → Option Double) :
    f.evaluate arith lookup = t.evaluate arith lookup := by
  have hrun := t.runs arith lookup [] [] [] (Machine.settled_nil true) (Machine.settled_nil false)
    trivial
  rw [List.append_nil, h] at hrun
  refine Evaluation.ext_of_outcome ((run_eq_evaluate arith f lookup).symm.trans (hrun.trans ?_))
  generalize t.evaluate arith lookup = e
  obtain ⟨reads, result⟩ := e
  cases result with
  | error err => rfl
  | ok v =>
    show (reads ++ [], Except.ok v) = (reads, Except.ok v)
    rw [List.append_nil]

/-- **A formula means what its parse tree means.**  Every formula has a parse tree, and whatever the
    operators stand for and whatever the cells hold, evaluating the formula gives the number or the
    error of the tree and reads the same cells in the same order. -/
theorem Formula.evaluate_parse (f : Formula) :
    (∃ t : Tree .sum, t.tokens = f.tokens) ∧
      ∀ t : Tree .sum, t.tokens = f.tokens → ∀ arith lookup,
        f.evaluate arith lookup = t.evaluate arith lookup :=
  ⟨isFormula_iff.1 f.isFormula, fun _ h arith lookup => evaluate_eq_of_tokens h arith lookup⟩

end LiveSheet
