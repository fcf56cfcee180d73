import LiveSheet.Formula.Machine

namespace LiveSheet

/-!
# The shapes of the stacks

Each open parenthesis starts a segment of the operator stack, and so does the start of the formula.
A segment holds at most one addition or subtraction below at most one multiplication or division.
The number of values is the number of operators that wait, and one more after an operand.

* `Machine.Shape` — the stacks that can occur, by phase and number of open parentheses.
* `Machine.Fits` — a machine has the shape that a place in a formula asks for.
* `Machine.step_safe` — a token that can stand at a place keeps the machine in shape.
* `Machine.run_not_stuck` — so no formula makes the machine take from an empty stack.
-/

namespace Machine

/-- Where in a segment the scan stands. -/
inductive Phase where
  /-- At the start of a segment. -/
  | opened
  /-- An operand comes next. -/
  | waiting
  /-- An operand has just been taken in. -/
  | ready
deriving DecidableEq

/-- The operator stacks, with the count of values, that fit a phase and a number of open
    parentheses. -/
inductive Shape : Phase → Nat → List Pending → Nat → Prop where
  | start : Shape .opened 0 [] 0
  | paren {d ps n} : Shape .waiting d ps n → Shape .opened (d + 1) (.paren :: ps) n
  | first {d ps n} : Shape .opened d ps n → Shape .waiting d ps n
  | term {d ps n o} : Shape .opened d ps n → o.isMultiplicative = false →
      Shape .waiting d (.op o :: ps) (n + 1)
  | factor {d ps n o} : Shape .opened d ps n → o.isMultiplicative = true →
      Shape .waiting d (.op o :: ps) (n + 1)
  | termFactor {d ps n o p} : Shape .opened d ps n → o.isMultiplicative = false →
      p.isMultiplicative = true → Shape .waiting d (.op p :: .op o :: ps) (n + 2)
  | single {d ps n} : Shape .opened d ps n → Shape .ready d ps (n + 1)
  | sum {d ps n o} : Shape .opened d ps n → o.isMultiplicative = false →
      Shape .ready d (.op o :: ps) (n + 2)

/-- Whether a machine fits a place in a formula. -/
def Fits (place : Cursor) (m : Machine) : Prop :=
  Shape (if place.operandNext then .waiting else .ready) place.depth m.pending m.values.length

/-- A step is safe for `P` if it gives a result with `P` or fails for a reason of the formula. -/
def Safe {α : Type} (P : α → Prop) : Except Halt α → Prop
  | .ok a => P a
  | .error h => h ≠ .stuck

/-- After a safe step, what is safe from all its results is safe. -/
theorem Safe.bind {α β : Type} {P : α → Prop} {Q : β → Prop} {r : Except Halt α}
    {f : α → Except Halt β} (hr : Safe P r) (hf : ∀ a, P a → Safe Q (f a)) : Safe Q (r >>= f) := by
  cases r with
  | ok a => exact hf a hr
  | error h => exact hr

/-- At the start of a segment nothing waits above the parenthesis that opens it. -/
theorem Shape.opened_pending {d : Nat} {ps : List Pending} {n : Nat} (h : Shape .opened d ps n) :
    ps = [] ∨ ∃ qs, ps = .paren :: qs := by
  cases h with
  | start => exact Or.inl rfl
  | paren _ => exact Or.inr ⟨_, rfl⟩

/-- At the start of a segment no operator is applied. -/
theorem reduceTier_opened {arith : Arithmetic} {tier : Bool} {d : Nat} {ps : List Pending} {n : Nat}
    (h : Shape .opened d ps n) (vs : List Double) :
    reduceTier arith tier ⟨ps, vs⟩ = .ok ⟨ps, vs⟩ := by
  rcases h.opened_pending with rfl | ⟨qs, rfl⟩ <;> rfl

/-- An operator of the other tier is left where it is. -/
theorem reduceTier_other {arith : Arithmetic} {tier : Bool} {o : Operator}
    (ho : o.isMultiplicative ≠ tier) (ps : List Pending) (vs : List Double) :
    reduceTier arith tier ⟨.op o :: ps, vs⟩ = .ok ⟨.op o :: ps, vs⟩ := by
  simp only [reduceTier, ho, if_false]

/-- An operator of the tier is applied: it takes two values off the stack and leaves one. -/
theorem reduceTier_same {arith : Arithmetic} {tier : Bool} {o : Operator}
    (ho : o.isMultiplicative = tier) {ps : List Pending} {vs : List Double} {n : Nat}
    (hvs : vs.length = n + 2) {P : Machine → Prop}
    (hP : ∀ ws : List Double, ws.length = n + 1 → P ⟨ps, ws⟩) :
    Safe P (reduceTier arith tier ⟨.op o :: ps, vs⟩) := by
  match vs, hvs with
  | right :: left :: rest, hvs =>
    simp only [reduceTier, ho, if_true, reduce]
    cases arith.apply o left right with
    | ok v =>
      refine hP _ ?_
      simp only [List.length_cons] at hvs ⊢
      omega
    | error e => exact Halt.noConfusion

/-- What waits for an operand takes in one more value: at once if it is a multiplication or a
    division, and else it goes on waiting. -/
theorem value_safe {arith : Arithmetic} {d n : Nat} {ps : List Pending} {vs : List Double}
    (h : Shape .waiting d ps n) (hvs : vs.length = n + 1) :
    Safe (fun r => Shape .ready d r.pending r.values.length) (reduceTier arith true ⟨ps, vs⟩) := by
  cases h with
  | first ho =>
    rw [reduceTier_opened ho]
    simp only [Safe, hvs]
    exact .single ho
  | term ho htier =>
    rw [reduceTier_other (by rw [htier]; exact Bool.noConfusion)]
    simp only [Safe, hvs]
    exact .sum ho htier
  | factor ho htier =>
    refine reduceTier_same htier hvs fun ws hws => ?_
    rw [hws]
    exact .single ho
  | termFactor ho hterm hfactor =>
    -- the addition below goes on waiting
    refine reduceTier_same hfactor hvs fun ws hws => ?_
    rw [hws]
    exact .sum ho hterm

/-- Taking in an operand where one is expected is safe. -/
theorem operand_safe {arith : Arithmetic} {d : Nat} {m : Machine} (v : Double)
    (h : Shape .waiting d m.pending m.values.length) :
    Safe (fun r => Shape .ready d r.pending r.values.length) (m.operand arith v) :=
  value_safe h List.length_cons

/-- After an operand, the waiting addition or subtraction of the segment can be applied. -/
theorem reduceSum_safe {arith : Arithmetic} {d : Nat} {m : Machine}
    (h : Shape .ready d m.pending m.values.length) :
    Safe (fun r => ∃ n, Shape .opened d r.pending n ∧ r.values.length = n + 1)
      (m.reduceTier arith false) := by
  obtain ⟨ps, vs⟩ := m
  generalize hn : vs.length = n at h
  cases h with
  | single ho =>
    rw [reduceTier_opened ho]
    exact ⟨_, ho, hn⟩
  | sum ho htier => exact reduceTier_same htier hn fun ws hws => ⟨_, ho, hws⟩

/-- Closing a parenthesis after an operand is safe. -/
theorem close_safe {arith : Arithmetic} {d n : Nat} {m : Machine}
    (h : Shape .opened (d + 1) m.pending n) (hn : m.values.length = n + 1) :
    Safe (fun r => Shape .ready d r.pending r.values.length)
      (m.open? >>= fun r => r.reduceTier arith true) := by
  obtain ⟨ps, vs⟩ := m
  cases h with
  | paren hwaiting =>
    -- the value of the segment is an operand to what waited before the parenthesis
    exact value_safe hwaiting hn

/-- A token that can stand at a place takes a machine that fits the place to one that fits the next
    place, or shows that the formula has no number. -/
theorem step_safe {arith : Arithmetic} {lookup : CellName → Option Double} {place next : Cursor}
    {m : Machine} {t : Token} (h : m.Fits place) (hstep : place.step t = some next) :
    Safe (Fits next) (m.step arith lookup t) := by
  obtain ⟨operandNext, d⟩ := place
  cases operandNext with
  | true =>
    -- of the tokens, only operands and opening parentheses can stand here
    cases t with
    | number value =>
      cases hstep
      exact operand_safe _ h
    | cell name =>
      cases hstep
      simp only [step]
      cases lookup name with
      | none => exact Halt.noConfusion
      | some v => exact operand_safe v h
    | leftParen =>
      cases hstep
      exact .first (.paren h)
    | rightParen => cases hstep
    | op o => cases hstep
  | false =>
    cases t with
    | number value => cases hstep
    | cell name => cases hstep
    | leftParen => cases hstep
    | op o =>
      -- a tighter operator waits on top; a looser one first lets the segment be summed up
      cases hstep
      simp only [step]
      split
      · next htier =>
        obtain ⟨ps, vs⟩ := m
        generalize hn : vs.length = n at h
        simp only [Fits, Bool.false_eq_true, if_false, hn] at h
        simp only [Safe, Fits, if_true, hn]
        cases h with
        | single ho => exact .factor ho htier
        | sum ho hterm => exact .termFactor ho hterm htier
      · next htier =>
        refine Safe.bind (reduceSum_safe h) fun r hr => ?_
        obtain ⟨n, ho, hn⟩ := hr
        simp only [Safe, Fits, if_true, hn]
        exact .term ho (by simpa using htier)
    | rightParen =>
      cases d with
      | zero => cases hstep
      | succ d =>
        cases hstep
        refine Safe.bind (reduceSum_safe h) fun r hr => ?_
        obtain ⟨n, ho, hn⟩ := hr
        exact close_safe ho hn

/-- At the end of a formula a number remains. -/
theorem finish_safe {arith : Arithmetic} {m : Machine} (h : m.Fits Cursor.finish) :
    Safe (fun _ => True) (m.finish arith) := by
  refine Safe.bind (reduceSum_safe h) fun r hr => ?_
  obtain ⟨n, -, hn⟩ := hr
  obtain ⟨ps, vs⟩ := r
  cases vs with
  | nil => simp at hn
  | cons v vs => trivial

/-- No formula makes the machine take from an empty stack. -/
theorem run_not_stuck {arith : Arithmetic} {lookup : CellName → Option Double} {ts : List Token} :
    ∀ {place : Cursor} {m : Machine}, m.Fits place → place.advance ts = some Cursor.finish →
      (run arith lookup m ts).2 ≠ .error .stuck := by
  -- place and machine go on together, and each step keeps them fitting
  induction ts with
  | nil =>
    intro place m h hadv
    cases hadv
    have hsafe := @finish_safe arith m h
    intro hstuck
    simp only [run] at hstuck
    rw [hstuck] at hsafe
    exact hsafe rfl
  | cons t ts ih =>
    intro place m h hadv
    simp only [Cursor.advance, Option.bind_eq_some_iff] at hadv
    obtain ⟨next, hstep, hadv⟩ := hadv
    have hsafe := @step_safe arith lookup place next m t h hstep
    simp only [run]
    cases hm : m.step arith lookup t with
    | error halt =>
      rw [hm] at hsafe
      intro hstuck
      cases hstuck
      exact hsafe rfl
    | ok m' =>
      rw [hm] at hsafe
      exact ih hsafe hadv

/-- A machine with empty stacks fits the start of a formula. -/
theorem empty_fits : empty.Fits Cursor.start := .first .start

end Machine

end LiveSheet
