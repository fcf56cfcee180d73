import LiveSheet.Formula.Evaluate
import Mathlib.Data.List.Basic

namespace LiveSheet

/-!
# What a formula reads

* `Formula.mem_references` — the cells a formula refers to are those its tokens name.
* `Formula.run_eq_evaluate` — the outcome of the machine is never that it is stuck.
* `Formula.evaluate_congr` — an evaluation depends on no other cell.
* `Machine.isPrefix_reads_run`, `Machine.run_undefined_iff` — a machine reads cells in the order of
  the tokens, and goes on until one of them has no number.
* `Formula.evaluate_reads` — what this says about a formula.
-/

/-- The tokens that a machine takes in decide which cells it reads. -/
theorem Machine.run_congr {arith : Arithmetic} {lookup lookup' : CellName → Option Double}
    {ts : List Token} (m : Machine)
    (h : ∀ name, Token.cell name ∈ ts → lookup name = lookup' name) :
    run arith lookup m ts = run arith lookup' m ts := by
  induction ts generalizing m with
  | nil => rfl
  | cons t ts ih =>
    -- Only the step for a cell looks anything up.
    have hstep : m.step arith lookup t = m.step arith lookup' t := by
      cases t with
      | cell name => simp only [step, h name List.mem_cons_self]
      | number value => rfl
      | leftParen => rfl
      | rightParen => rfl
      | op o => rfl
    have hrest : ∀ next, run arith lookup next ts = run arith lookup' next ts :=
      fun next => ih next fun name hname => h name (List.mem_cons_of_mem t hname)
    simp only [run, hstep, hrest]

/-- An evaluation is determined by the outcome of the machine that it stands for. -/
theorem Evaluation.ext_of_outcome {e e' : Evaluation}
    (h : (e.reads, e.result.mapError Halt.failed) = (e'.reads, e'.result.mapError Halt.failed)) :
    e = e' := by
  obtain ⟨reads, result⟩ := e
  obtain ⟨reads', result'⟩ := e'
  obtain ⟨hreads, hresult⟩ := Prod.mk.inj h
  -- `mapError .failed` is injective, so the results agree too
  have hsame : result = result' := by
    cases result <;> cases result' <;> cases hresult <;> rfl
  rw [hsame]
  exact congrArg (Evaluation.mk · result') hreads

namespace Formula

/-- The token that names a cell is the only one that mentions it. -/
theorem mention?_eq_some_iff {t : Token} {name : CellName} :
    mention? t = some name ↔ t = .cell name := by
  cases t <;> simp [mention?]

/-- A formula mentions the cells that its tokens name. -/
theorem mem_mentions {f : Formula} {name : CellName} :
    name ∈ f.mentions ↔ Token.cell name ∈ f.tokens := by
  simp only [mentions, List.mem_filterMap, mention?_eq_some_iff, exists_eq_right]

/-- A formula refers to the cells that it mentions. -/
theorem mem_references {f : Formula} {name : CellName} :
    name ∈ f.references ↔ name ∈ f.mentions := by
  rw [references, Std.ExtTreeSet.mem_ofList, List.contains_iff_mem]

/-- The machine's outcome is the result of the evaluation. -/
theorem run_eq_evaluate (arith : Arithmetic) (f : Formula) (lookup : CellName → Option Double) :
    Machine.run arith lookup Machine.empty f.tokens
      = ((f.evaluate arith lookup).reads, (f.evaluate arith lookup).result.mapError .failed) := by
  refine Prod.ext rfl ?_
  simp only [evaluate]
  split
  · next h => exact h
  · next h => exact h
  · next h => exact absurd h (Machine.run_not_stuck Machine.empty_fits f.isFormula)

/-- **A formula reads nothing but the cells it refers to.** -/
theorem evaluate_congr {arith : Arithmetic} {f : Formula}
    {lookup lookup' : CellName → Option Double}
    (h : ∀ name ∈ f.references, lookup name = lookup' name) :
    f.evaluate arith lookup = f.evaluate arith lookup' := by
  have hrun : Machine.run arith lookup Machine.empty f.tokens
      = Machine.run arith lookup' Machine.empty f.tokens :=
    Machine.run_congr Machine.empty fun name hname =>
      h name (mem_references.2 (mem_mentions.2 hname))
  rw [run_eq_evaluate, run_eq_evaluate] at hrun
  exact Evaluation.ext_of_outcome hrun

end Formula

/-! ### The order of reading -/

/-- Division by zero and overflow are the only faults of an operator. -/
theorem Arithmetic.apply_ne_undefined (arith : Arithmetic) (o : Operator) (left right : Double)
    (name : CellName) : arith.apply o left right ≠ .error (.undefinedVariable name) := by
  unfold apply
  split
  · exact nofun
  split
  · exact nofun
  · exact nofun

namespace Machine

variable {arith : Arithmetic} {lookup : CellName → Option Double} {name : CellName}

/-- An outcome does not blame a cell for having no number. -/
def BlamesNone {α : Type} (r : Except Halt α) : Prop :=
  ∀ name, r ≠ .error (.failed (.undefinedVariable name))

/-- A result blames no cell. -/
theorem blamesNone_ok {α : Type} (a : α) : BlamesNone (.ok a) := fun _ h => nomatch h

/-- Two outcomes in a row blame no cell if neither of them does. -/
theorem BlamesNone.bind {α β : Type} {r : Except Halt α} {f : α → Except Halt β}
    (hr : BlamesNone r) (hf : ∀ a, BlamesNone (f a)) : BlamesNone (r >>= f) := by
  cases r with
  | ok a => exact hf a
  | error halt => exact fun name h => hr name (congrArg Except.error (Except.error.inj h))

/-- A machine that is stuck blames no cell. -/
theorem blamesNone_stuck {α : Type} : BlamesNone (.error .stuck : Except Halt α) :=
  fun _ h => nomatch h

/-- Applying an operator blames no cell. -/
theorem blamesNone_reduce (m : Machine) : BlamesNone (m.reduce arith) := by
  unfold reduce
  split
  · split
    · exact blamesNone_ok _
    · next happly =>
      rintro name ⟨⟩
      exact arith.apply_ne_undefined _ _ _ name happly
  · exact blamesNone_stuck

/-- Applying an operator of a tier, or none, blames no cell. -/
theorem blamesNone_reduceTier (tier : Bool) (m : Machine) :
    BlamesNone (m.reduceTier arith tier) := by
  unfold reduceTier
  split
  · split
    · exact blamesNone_reduce m
    · exact blamesNone_ok m
  · exact blamesNone_ok m

/-- Taking in an operand blames no cell: the cell was read before. -/
theorem blamesNone_operand (m : Machine) (v : Double) : BlamesNone (m.operand arith v) :=
  blamesNone_reduceTier true _

/-- Applying what is left blames no cell. -/
theorem blamesNone_finish (m : Machine) : BlamesNone (m.finish arith) := by
  refine (blamesNone_reduceTier false m).bind fun r => ?_
  split
  · exact blamesNone_ok _
  · exact blamesNone_stuck

/-- A step blames the cell that it reads, if the cell has no number, and else none. -/
theorem step_undefined_iff {m : Machine} {t : Token} :
    m.step arith lookup t = .error (.failed (.undefinedVariable name)) ↔
      t = .cell name ∧ lookup name = none := by
  cases t with
  | cell other =>
    simp only [step, Token.cell.injEq]
    cases hother : lookup other with
    | none =>
      simp only [Except.error.injEq, Halt.failed.injEq, EvalError.undefinedVariable.injEq]
      exact ⟨fun h => ⟨h, h ▸ hother⟩, And.left⟩
    | some v =>
      refine iff_of_false (blamesNone_operand m v name) ?_
      rintro ⟨rfl, hnone⟩
      rw [hother] at hnone
      cases hnone
  | number value =>
    exact iff_of_false (blamesNone_operand m _ name) (by rintro ⟨⟨⟩, -⟩)
  | leftParen => exact iff_of_false (blamesNone_ok _ name) (by rintro ⟨⟨⟩, -⟩)
  | rightParen =>
    -- Reducing and popping blame no cell, whatever they find on the stacks.
    refine iff_of_false ?_ (by rintro ⟨⟨⟩, -⟩)
    refine (blamesNone_reduceTier false m).bind (fun r => ?_) name
    refine BlamesNone.bind ?_ (blamesNone_reduceTier true)
    unfold open?
    split
    · exact blamesNone_ok _
    · exact blamesNone_stuck
  | op o =>
    refine iff_of_false ?_ (by rintro ⟨⟨⟩, -⟩)
    simp only [step]
    split
    · exact blamesNone_ok _ name
    · exact (blamesNone_reduceTier false m).bind (fun r => blamesNone_ok _) name

variable {m next : Machine} {t : Token} {ts : List Token}

/-- A step that fails ends the run, and its token has been read. -/
theorem run_of_step_error {halt : Halt} (h : m.step arith lookup t = .error halt) :
    run arith lookup m (t :: ts) = ((Formula.mention? t).toList, .error halt) := by
  simp only [run, h]

/-- A step that goes well reads its token, and the run goes on from there. -/
theorem run_of_step_ok (h : m.step arith lookup t = .ok next) :
    run arith lookup m (t :: ts)
      = ((Formula.mention? t).toList ++ (run arith lookup next ts).1,
          (run arith lookup next ts).2) := by
  simp only [run, h]

/-- A machine reads the cells in the order in which the tokens name them. -/
theorem isPrefix_reads_run (m : Machine) (ts : List Token) :
    (run arith lookup m ts).1 <+: ts.filterMap Formula.mention? := by
  rw [List.filterMap_eq_flatMap_toList]
  induction ts generalizing m with
  | nil => exact List.prefix_rfl
  | cons t ts ih =>
    rw [List.flatMap_cons]
    cases hstep : m.step arith lookup t with
    | error halt =>
      rw [run_of_step_error hstep]
      exact List.prefix_append _ _
    | ok next =>
      rw [run_of_step_ok hstep]
      exact (List.prefix_append_right_inj _).2 (ih next)

/-- A machine that gives a number has read all cells that the tokens name. -/
theorem run_reads_of_ok {v : Double} (h : (run arith lookup m ts).2 = .ok v) :
    (run arith lookup m ts).1 = ts.filterMap Formula.mention? := by
  rw [List.filterMap_eq_flatMap_toList]
  induction ts generalizing m with
  | nil => rfl
  | cons t ts ih =>
    rw [List.flatMap_cons]
    cases hstep : m.step arith lookup t with
    | error halt =>
      rw [run_of_step_error hstep] at h
      cases h
    | ok next =>
      rw [run_of_step_ok hstep] at h ⊢
      exact congrArg _ (ih h)

/-- **A machine blames a cell exactly when it has read the cell and found no number there.** -/
theorem run_undefined_iff :
    (run arith lookup m ts).2 = .error (.failed (.undefinedVariable name)) ↔
      name ∈ (run arith lookup m ts).1 ∧ lookup name = none := by
  induction ts generalizing m with
  | nil => exact iff_of_false (blamesNone_finish m name) fun h => List.not_mem_nil h.1
  | cons t ts ih =>
    have hread : name ∈ (Formula.mention? t).toList ↔ t = .cell name := by
      rw [Option.mem_toList, Formula.mention?_eq_some_iff]
    cases hstep : m.step arith lookup t with
    | error halt =>
      have hblamed : m.step arith lookup t = .error (.failed (.undefinedVariable name)) ↔ _ :=
        step_undefined_iff
      rw [hstep, Except.error.injEq] at hblamed
      rw [run_of_step_error hstep, hread, ← hblamed, Except.error.injEq]
    | ok next =>
      -- the step gave a machine, so the cell that it read has a number
      have hvalue : ¬ (t = .cell name ∧ lookup name = none) := fun h =>
        nomatch hstep.symm.trans (step_undefined_iff.2 h)
      rw [run_of_step_ok hstep, List.mem_append, hread, ih, or_and_right]
      exact (or_iff_right hvalue).symm

/-- The cell that is blamed was read last. -/
theorem getLast?_of_run_undefined
    (h : (run arith lookup m ts).2 = .error (.failed (.undefinedVariable name))) :
    (run arith lookup m ts).1.getLast? = some name := by
  induction ts generalizing m with
  | nil => exact absurd h (blamesNone_finish m name)
  | cons t ts ih =>
    cases hstep : m.step arith lookup t with
    | error halt =>
      rw [run_of_step_error hstep] at h ⊢
      obtain rfl : halt = .failed (.undefinedVariable name) := Except.error.inj h
      obtain ⟨rfl, -⟩ := step_undefined_iff.1 hstep
      rfl
    | ok next =>
      rw [run_of_step_ok hstep] at h ⊢
      rw [List.getLast?_append, ih h, Option.some_or]

end Machine

namespace Formula

/-- The errors of an evaluation are those of the machine, under another name. -/
theorem mapError_failed_eq_iff {r : Except EvalError Double} {e : EvalError} :
    r.mapError Halt.failed = .error (.failed e) ↔ r = .error e := by
  cases r <;> simp [Except.mapError]

/-- **A formula reads nothing but the cells it refers to, in the order of its text.**
    * The cells that are read are the first of those that the formula mentions, each time it does
      so, and all of them if it has a number.
    * So all of them are cells that the formula refers to, and with the same numbers in these the
      formula reads the same cells and has the same result.
    * The result blames a cell for having no number exactly when the cell was read and has none; it
      is then the last one that was read. -/
theorem evaluate_reads (arith : Arithmetic) (f : Formula) (lookup : CellName → Option Double) :
    let e := f.evaluate arith lookup
    e.reads <+: f.mentions ∧ (∀ v, e.result = .ok v → e.reads = f.mentions) ∧
    (∀ name ∈ e.reads, name ∈ f.references) ∧
    (∀ lookup', (∀ name ∈ f.references, lookup' name = lookup name) →
      (f.evaluate arith lookup').result = e.result ∧
        (f.evaluate arith lookup').reads = e.reads) ∧
    ∀ name, (e.result = .error (.undefinedVariable name) ↔ name ∈ e.reads ∧ lookup name = none) ∧
      (e.result = .error (.undefinedVariable name) → e.reads.getLast? = some name) := by
  intro e
  -- The machine's run gives the reads and the result, so its lemmas apply.
  have hresult : (Machine.run arith lookup Machine.empty f.tokens).2 = e.result.mapError .failed :=
    congrArg Prod.snd (f.run_eq_evaluate arith lookup)
  have hinitial : e.reads <+: f.mentions := Machine.isPrefix_reads_run Machine.empty f.tokens
  have hblamed : ∀ name, (Machine.run arith lookup Machine.empty f.tokens).2
      = .error (.failed (.undefinedVariable name)) ↔ e.result = .error (.undefinedVariable name) :=
    fun name => by rw [hresult, mapError_failed_eq_iff]
  refine ⟨hinitial, fun v hv => ?_, fun name hname => mem_references.2 (hinitial.subset hname),
    fun lookup' h => ?_, fun name => ⟨?_, fun h => ?_⟩⟩
  · refine Machine.run_reads_of_ok (v := v) ?_
    rw [hresult, hv]
    rfl
  · rw [evaluate_congr h]
    exact ⟨rfl, rfl⟩
  · exact (hblamed name).symm.trans Machine.run_undefined_iff
  · exact Machine.getLast?_of_run_undefined ((hblamed name).2 h)

end Formula

end LiveSheet
