import LiveSheet.Proofs.Formula.Grammar
import LiveSheet.Proofs.Formula.Reads

namespace LiveSheet

/-!
# The stacks of the machine, token by token

The parentheses on the operator stack cut it into segments, one for each open parenthesis and the
outermost one.  In each of them at most one addition or subtraction waits, below at most one
multiplication or division.  Every operator that waits has its left operand among the values, and
right after an operand there is one value more.  So the machine never takes from an empty stack.

* `Machine.scan` — the machine after the first tokens of a formula.
* `IsSegment` — what can wait in a segment.
* `endsOperand` — whether tokens end with an operand.
* `Machine.Shape.segmented`, `Machine.Shape.length_values`, `Machine.Shape.top` — what the shape of
  the stacks says about the segments, the values and the operator on top.
* `Machine.scan_safe` — the tokens of a formula keep the machine in shape.
* `Formula.stacks_disciplined` — what this says about every part of a formula.
-/

/-! ### Operands and open parentheses -/

/-- Whether an operand ends with a token. -/
def Token.endsOperand : Token → Bool
  | .number _ => true
  | .cell _ => true
  | .rightParen => true
  | .leftParen => false
  | .op _ => false

/-- Whether tokens end with an operand. -/
def endsOperand (ts : List Token) : Bool := ts.getLast?.any Token.endsOperand

namespace Cursor

variable {c next : Cursor} {t : Token} {ts : List Token}

/-- An operand comes next unless one has just ended, and a parenthesis changes the depth by one. -/
theorem step_spec (h : c.step t = some next) :
    next.operandNext = !t.endsOperand ∧
      next.depth + [t].count .rightParen = c.depth + [t].count .leftParen := by
  obtain ⟨operandNext, depth⟩ := c
  cases operandNext with
  | true =>
    cases t with
    | number value => cases h; exact ⟨rfl, rfl⟩
    | cell name => cases h; exact ⟨rfl, rfl⟩
    | leftParen => cases h; exact ⟨rfl, rfl⟩
    | rightParen => cases h
    | op o => cases h
  | false =>
    cases t with
    | number value => cases h
    | cell name => cases h
    | leftParen => cases h
    | op o => cases h; exact ⟨rfl, rfl⟩
    | rightParen =>
      cases depth with
      | zero => cases h
      | succ depth => cases h; exact ⟨rfl, rfl⟩

/-- A parenthesis is closed only after an operand, and only if one is open. -/
theorem eq_of_step_rightParen (h : c.step .rightParen = some next) : ∃ d, c = ⟨false, d + 1⟩ := by
  obtain ⟨operandNext, depth⟩ := c
  cases operandNext with
  | true => cases h
  | false =>
    cases depth with
    | zero => cases h
    | succ depth => exact ⟨depth, rfl⟩

/-- The depth is the number of parentheses that are open. -/
theorem depth_of_advance (h : c.advance ts = some next) :
    next.depth + ts.count .rightParen = c.depth + ts.count .leftParen := by
  induction ts generalizing c with
  | nil => cases h; rfl
  | cons t ts ih =>
    obtain ⟨middle, hstep, hrest⟩ := Option.bind_eq_some_iff.1 h
    have htoken := (step_spec hstep).2
    have hlater := ih hrest
    rw [← List.singleton_append, List.count_append, List.count_append]
    omega

/-- After the first tokens of a formula an operand comes next unless they end with one. -/
theorem operandNext_of_advance (h : start.advance ts = some next) :
    next.operandNext = !endsOperand ts := by
  rcases ts.eq_nil_or_concat with rfl | ⟨init, last, rfl⟩
  · cases h; rfl
  · rw [List.concat_eq_append] at h ⊢
    rw [advance_append] at h
    obtain ⟨middle, -, hlast⟩ := Option.bind_eq_some_iff.1 h
    obtain ⟨after, hstep, hnil⟩ := Option.bind_eq_some_iff.1 hlast
    cases hnil
    rw [endsOperand, List.getLast?_concat, (step_spec hstep).1, Option.any_some]

end Cursor

/-! ### The shape of the stacks -/

/-- What can wait in a segment, from its top: at most one multiplication or division, above at most
    one addition or subtraction. -/
def IsSegment (segment : List Pending) : Prop :=
  ∃ factor term : Option Operator, segment = (factor.toList ++ term.toList).map .op ∧
    (∀ o ∈ factor, o.isMultiplicative = true) ∧ ∀ o ∈ term, o.isMultiplicative = false

/-- Nothing waits in an empty segment. -/
theorem isSegment_nil : IsSegment [] := ⟨none, none, rfl, nofun, nofun⟩

namespace Machine

/-- The parentheses cut an operator stack into segments, one for each open parenthesis and the
    outermost one. -/
def Segmented (depth : Nat) (ps : List Pending) : Prop :=
  (ps.splitOn .paren).length = depth + 1 ∧ ∀ segment ∈ ps.splitOn .paren, IsSegment segment

/-- A parenthesis on top opens a new segment. -/
theorem splitOn_paren (ps : List Pending) :
    (Pending.paren :: ps).splitOn .paren = [] :: ps.splitOn .paren := by
  simp [List.splitOn, List.splitOnP_cons_eq_if_modifyHead]

/-- An operator on top waits in the uppermost segment. -/
theorem splitOn_op (o : Operator) (ps : List Pending) :
    (Pending.op o :: ps).splitOn .paren = (ps.splitOn .paren).modifyHead (.op o :: ·) := by
  simp [List.splitOn, List.splitOnP_cons_eq_if_modifyHead]

/-- Operators above the start of a segment are all that waits in it. -/
theorem splitOn_ops {ps : List Pending} {below : List (List Pending)}
    (hps : ps.splitOn .paren = [] :: below) (os : List Operator) :
    (os.map Pending.op ++ ps).splitOn .paren = os.map .op :: below := by
  induction os with
  | nil => exact hps
  | cons o os ih => rw [List.map_cons, List.cons_append, splitOn_op, ih, List.modifyHead_cons]

section Shape

variable {phase : Phase} {d n : Nat} {ps : List Pending}

/-- Nothing waits in a segment that was just opened. -/
theorem Shape.splitOn_opened (h : Shape .opened d ps n) :
    ∃ below, ps.splitOn .paren = [] :: below := by
  rcases h.opened_pending with rfl | ⟨qs, rfl⟩
  · exact ⟨[], rfl⟩
  · exact ⟨_, splitOn_paren qs⟩

/-- What waits in a segment is put onto one that was just opened. -/
theorem Segmented.fill (hps : Segmented d ps) (h : Shape .opened d ps n)
    (factor term : Option Operator) (hfactor : ∀ o ∈ factor, o.isMultiplicative = true)
    (hterm : ∀ o ∈ term, o.isMultiplicative = false) :
    Segmented d ((factor.toList ++ term.toList).map .op ++ ps) := by
  obtain ⟨below, hbelow⟩ := h.splitOn_opened
  obtain ⟨hlength, hsegments⟩ := hps
  rw [hbelow] at hlength hsegments
  rw [Segmented, splitOn_ops hbelow]
  refine ⟨hlength, fun segment hmem => ?_⟩
  rcases List.mem_cons.1 hmem with rfl | hbelow
  · exact ⟨factor, term, rfl, hfactor, hterm⟩
  · exact hsegments segment (List.mem_cons_of_mem _ hbelow)

/-- **Every stack that can occur is cut into segments.** -/
theorem Shape.segmented (h : Shape phase d ps n) : Segmented d ps := by
  induction h with
  | start => exact ⟨rfl, fun segment hmem => List.mem_singleton.1 hmem ▸ isSegment_nil⟩
  | @paren d ps n h ih =>
    -- the parenthesis starts an empty segment above those that were there
    obtain ⟨hlength, hsegments⟩ := ih
    rw [Segmented, splitOn_paren]
    refine ⟨congrArg (· + 1) hlength, fun segment hmem => ?_⟩
    rcases List.mem_cons.1 hmem with rfl | hbelow
    · exact isSegment_nil
    · exact hsegments segment hbelow
  | first _ ih => exact ih
  | term h ho ih => exact ih.fill h none (some _) nofun (by rintro _ ⟨⟩; exact ho)
  | factor h ho ih => exact ih.fill h (some _) none (by rintro _ ⟨⟩; exact ho) nofun
  | termFactor h ho hp ih =>
    exact ih.fill h (some _) (some _) (by rintro _ ⟨⟩; exact hp) (by rintro _ ⟨⟩; exact ho)
  | single _ ih => exact ih
  | sum h ho ih => exact ih.fill h none (some _) nofun (by rintro _ ⟨⟩; exact ho)

/-- **Each operator that waits has its left operand among the values.** -/
theorem Shape.length_values (h : Shape phase d ps n) :
    n = ps.countP (· ≠ .paren) + if phase = .ready then 1 else 0 := by
  induction h with
  | start => rfl
  | paren _ ih => simpa using ih
  | first _ ih => simpa using ih
  | term _ _ ih => simpa using ih
  | factor _ _ ih => simpa using ih
  | termFactor _ _ _ ih => simpa using ih
  | single _ ih => simpa using ih
  | sum _ _ ih => simpa using ih

/-- **Right after an operand no multiplication or division is on top.** -/
theorem Shape.top (h : Shape .ready d ps n) {o : Operator} (hps : ps.head? = some (.op o)) :
    o.isMultiplicative = false := by
  cases h with
  | single h =>
    rcases h.opened_pending with rfl | ⟨qs, rfl⟩
    · cases hps
    · cases hps
  | sum _ ho => cases hps; exact ho

end Shape

/-! ### The machine after the first tokens -/

/-- The machine after a list of tokens, if none of them makes it stop. -/
def scan (arith : Arithmetic) (lookup : CellName → Option Double) (m : Machine) (ts : List Token) :
    Except Halt Machine :=
  ts.foldlM (step arith lookup) m

variable {arith : Arithmetic} {lookup : CellName → Option Double} {m : Machine} {ts : List Token}

/-- A run goes through the tokens and then finishes. -/
theorem run_eq_scan : (run arith lookup m ts).2 = scan arith lookup m ts >>= finish arith := by
  induction ts generalizing m with
  | nil => rfl
  | cons t ts ih =>
    rw [scan, List.foldlM_cons]
    cases hstep : m.step arith lookup t with
    | error halt => rw [run_of_step_error hstep]; rfl
    | ok next => rw [run_of_step_ok hstep]; exact ih

/-- **Tokens that can stand one after the other keep the machine in shape.** -/
theorem scan_safe {place next : Cursor} (h : m.Fits place) (hts : place.advance ts = some next) :
    Safe (Fits next) (scan arith lookup m ts) := by
  induction ts generalizing place m with
  | nil => cases hts; exact h
  | cons t ts ih =>
    obtain ⟨middle, hstep, hrest⟩ := Option.bind_eq_some_iff.1 hts
    rw [scan, List.foldlM_cons]
    exact Safe.bind (step_safe h hstep) fun r hr => ih hr hrest

/-- A closing parenthesis finds the one that it closes on top. -/
theorem Fits.head?_of_close {d : Nat} (h : m.Fits ⟨false, d + 1⟩) {r : Machine}
    (hr : m.reduceTier arith false = .ok r) : r.pending.head? = some .paren := by
  have hsafe := @reduceSum_safe arith _ m h
  rw [hr] at hsafe
  obtain ⟨n, hopened, -⟩ := hsafe
  obtain ⟨ps, vs⟩ := r
  cases hopened with
  | paren _ => rfl

/-- At the end of a formula one value and no operator remain. -/
theorem Fits.eq_single_of_finish (h : m.Fits Cursor.finish) {r : Machine}
    (hr : m.reduceTier arith false = .ok r) : ∃ v, r = ⟨[], [v]⟩ := by
  have hsafe := @reduceSum_safe arith _ m h
  rw [hr] at hsafe
  obtain ⟨n, hopened, hlength⟩ := hsafe
  obtain ⟨ps, vs⟩ := r
  cases hopened with
  | start =>
    obtain ⟨v, rfl⟩ := List.length_eq_one_iff.1 hlength
    exact ⟨v, rfl⟩

end Machine

/-! ### The stacks of a formula -/

/-- After all tokens of a formula, the machine finishes with the result of the formula. -/
theorem Formula.finish_of_scan {arith : Arithmetic} {f : Formula}
    {lookup : CellName → Option Double} {m : Machine}
    (hm : Machine.scan arith lookup Machine.empty f.tokens = .ok m) :
    m.finish arith = (f.evaluate arith lookup).result.mapError .failed := by
  have hrun := congrArg Prod.snd (f.run_eq_evaluate arith lookup)
  rw [Machine.run_eq_scan, hm] at hrun
  exact hrun

open Machine in
/-- **The stacks at every place of a formula.**  After the first tokens of a formula, whatever the
    operators stand for and whatever the cells hold:
    * The machine has not tried to take from an empty stack, or a parenthesis for an operator.
    * The parentheses cut the operator stack into one segment for each parenthesis that is open and
      the outermost one, and in each of them at most one addition or subtraction waits, below at
      most one multiplication or division.
    * There are as many values as operators that wait, and one more right after an operand; then no
      multiplication or division is on top.
    * A closing parenthesis that comes next finds the one that it closes on top.
    * If these are all tokens, one value and no operator remain when what waits is applied, unless
      it has no result.  The value is the result of the formula. -/
theorem Formula.stacks_disciplined (arith : Arithmetic) (f : Formula)
    (lookup : CellName → Option Double) {before after : List Token}
    (hcut : f.tokens = before ++ after) :
    scan arith lookup Machine.empty before ≠ .error .stuck ∧
    ∀ m, scan arith lookup Machine.empty before = .ok m →
      ((m.pending.splitOn .paren).length + before.count .rightParen
          = before.count .leftParen + 1 ∧
        ∀ segment ∈ m.pending.splitOn .paren, IsSegment segment) ∧
      m.values.length = m.pending.countP (· ≠ .paren) + (if endsOperand before then 1 else 0) ∧
      (endsOperand before = true →
        ∀ o, m.pending.head? = some (.op o) → o.isMultiplicative = false) ∧
      (∀ rest, after = .rightParen :: rest → ∀ r, m.reduceTier arith false = .ok r →
        r.pending.head? = some .paren) ∧
      (after = [] → m.finish arith ≠ .error .stuck ∧
        ∀ r, m.reduceTier arith false = .ok r →
          ∃ v, r = ⟨[], [v]⟩ ∧ (f.evaluate arith lookup).result = .ok v) := by
  have hformula : Cursor.start.advance (before ++ after) = some Cursor.finish := hcut ▸ f.isFormula
  rw [Cursor.advance_append] at hformula
  -- the first tokens lead to a place, and the machine fits it
  obtain ⟨place, hbefore, hafter⟩ := Option.bind_eq_some_iff.1 hformula
  have hsafe : Safe (Fits place) (scan arith lookup Machine.empty before) :=
    scan_safe empty_fits hbefore
  refine ⟨fun hstuck => ?_, fun m hm => ?_⟩
  · rw [hstuck] at hsafe
    exact hsafe rfl
  rw [hm] at hsafe
  have hfits : m.Fits place := hsafe
  have hdepth : place.depth + before.count .rightParen = 0 + before.count .leftParen :=
    Cursor.depth_of_advance hbefore
  have hnext : place.operandNext = !endsOperand before := Cursor.operandNext_of_advance hbefore
  obtain ⟨hlength, hsegments⟩ := Shape.segmented hfits
  have hvalues := Shape.length_values hfits
  refine ⟨⟨by omega, hsegments⟩, ?_, fun hends o ho => ?_, fun rest hrest r hr => ?_,
    fun hend => ?_⟩
  · rw [hvalues, hnext]
    cases endsOperand before <;> rfl
  · rw [Fits, hnext, hends] at hfits
    exact Shape.top hfits ho
  · -- a parenthesis can be closed here, so an operand has just ended and one is open
    rw [hrest] at hafter
    obtain ⟨next, hstep, -⟩ := Option.bind_eq_some_iff.1 hafter
    obtain ⟨d, rfl⟩ := Cursor.eq_of_step_rightParen hstep
    exact hfits.head?_of_close hr
  · -- these are all tokens, so the place is the end of the formula
    rw [hend, List.append_nil] at hcut
    rw [hend] at hafter
    cases hafter
    have hfinish : m.finish arith = (f.evaluate arith lookup).result.mapError .failed :=
      finish_of_scan (hcut ▸ hm)
    refine ⟨fun hstuck => ?_, fun r hr => ?_⟩
    · have hsafe := @finish_safe arith m hfits
      rw [hstuck] at hsafe
      exact hsafe rfl
    · obtain ⟨v, rfl⟩ := hfits.eq_single_of_finish hr
      refine ⟨v, rfl, ?_⟩
      rw [finish, hr] at hfinish
      cases hresult : (f.evaluate arith lookup).result with
      | ok w => rw [hresult] at hfinish; cases hfinish; rfl
      | error e => rw [hresult] at hfinish; cases hfinish

/-- The number one. -/
def Literal.one : Literal := ⟨1023 * Double.block, by decide⟩

/-- The formula `1+1*(1-1*1)`. -/
def Formula.nested : Formula where
  tokens := [.number .one, .op .add, .number .one, .op .mul, .leftParen, .number .one, .op .sub,
    .number .one, .op .mul, .number .one, .rightParen]
  isFormula := by decide

open Machine in
/-- In `1+1*(1-1*1)`, two operators wait in each of the two segments before the last number.  After
    all tokens only the addition does, and the formula has the value one. -/
theorem Formula.stacks_disciplined_nested :
    let lookup : CellName → Option Double := fun _ => none
    let one := Literal.one.toDouble
    let zero := Double.finite false Double.zeroRank
    let inner : List Pending := [.op .mul, .op .sub]
    let outer : List Pending := [.op .mul, .op .add]
    nested.tokens = nested.tokens.take 9 ++ [.number .one, .rightParen] ∧
    scan ieeeArithmetic lookup Machine.empty (nested.tokens.take 9)
      = .ok ⟨inner ++ .paren :: outer, [one, one, one, one]⟩ ∧
    (IsSegment inner ∧ IsSegment outer) ∧
    scan ieeeArithmetic lookup Machine.empty nested.tokens = .ok ⟨[.op .add], [zero, one]⟩ ∧
    (nested.evaluate ieeeArithmetic lookup).result = .ok one := by
  intro lookup one zero inner outer
  have hcut : nested.tokens = nested.tokens.take 9 ++ [.number .one, .rightParen] := rfl
  have hpart : scan ieeeArithmetic lookup Machine.empty (nested.tokens.take 9)
      = .ok ⟨inner ++ .paren :: outer, [one, one, one, one]⟩ := rfl
  -- The four sums and products that are computed on the way.
  have hproduct : ieeeArithmetic.apply .mul one one = .ok one := by decide +kernel
  have hdifference : ieeeArithmetic.apply .sub one one = .ok zero := by decide +kernel
  have hnothing : ieeeArithmetic.apply .mul one zero = .ok zero := by decide +kernel
  have hsum : ieeeArithmetic.apply .add one zero = .ok one := by decide +kernel
  have hall : scan ieeeArithmetic lookup Machine.empty nested.tokens
      = .ok ⟨[.op .add], [zero, one]⟩ := by
    simp only [one, zero] at hproduct hdifference hnothing ⊢
    simp [scan, nested, step, operand, reduceTier, reduce, open?, Machine.empty,
      Operator.isMultiplicative, hproduct, hdifference, hnothing, bind, Except.bind, pure,
      Except.pure]
  have hlast : reduceTier ieeeArithmetic false ⟨[.op .add], [zero, one]⟩ = .ok ⟨[], [one]⟩ := by
    simp only [reduceTier, Operator.isMultiplicative, if_true, reduce, hsum]
  -- The discipline is applied in the middle of the formula and at its end.
  obtain ⟨-, hplaces⟩ := stacks_disciplined ieeeArithmetic nested lookup hcut
  obtain ⟨⟨-, hsegments⟩, -⟩ := hplaces _ hpart
  obtain ⟨-, hend⟩ := stacks_disciplined ieeeArithmetic nested lookup nested.tokens.append_nil.symm
  obtain ⟨-, -, -, -, hfinish⟩ := hend _ hall
  obtain ⟨v, hv, hresult⟩ := (hfinish rfl).2 _ hlast
  cases hv
  have hsplit : (inner ++ .paren :: outer).splitOn .paren = [inner, outer] := by decide
  rw [hsplit] at hsegments
  exact ⟨hcut, hpart, ⟨hsegments inner (by simp), hsegments outer (by simp)⟩, hall, hresult⟩

end LiveSheet
