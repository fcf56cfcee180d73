import LiveSheet.Proofs.Formula.Finiteness
import LiveSheet.Proofs.Session.Reloading

namespace LiveSheet

/-!
# The numbers that a sheet shows are finite

A formula hands on or computes finite numbers when it reads finite ones, and along the references
every number goes back to contents.  Nothing in this depends on what the operators compute, so it is
said of every meaning of the operators: the cells then show the solution of one equation for each
cell.

* `Cells.ShowsBy` — the equations.
* `Cells.exists_showsBy` — they have a solution.
* `Cells.ShowsBy.isFinite` — from finite contents, finite numbers.
* `Session.run_finite` — what this says about the sheet of a session.
-/

namespace Cells

/-- What a cell shows; an empty cell shows nothing. -/
def value? (cells : Cells) (name : CellName) : Option Value := cells[name]?.map Cell.value

/-- All numbers that cells hold are finite. -/
def HoldsFinite (cells : Cells) : Prop :=
  ∀ n v, cells.contents? n = some (.number v) → v.isFinite = true

/-- Every cell shows what its contents stand for, when the operators have the given meaning. -/
def ShowsBy (arith : Arithmetic) (cells : Cells) (shown : CellName → Option Value) : Prop :=
  ∀ n, shown n = (cells.contents? n).map (·.shownBy arith fun u => (shown u).bind Value.number?)

variable {arith : Arithmetic} {cells : Cells} {shown : CellName → Option Value}

/-- A cell refers to the cells that its contents refer to. -/
theorem refers_of_mem_references {n u : CellName} {c : Contents}
    (hc : cells.contents? n = some c) (hu : u ∈ c.references) : cells.Refers u n := by
  rw [Refers, hc]
  exact hu

/-- **Finite contents make finite values.** -/
theorem ShowsBy.isFinite (hwf : WellFounded cells.Refers) (h : cells.ShowsBy arith shown)
    (hfinite : cells.HoldsFinite) {n : CellName} {v : Double} (hv : shown n = some (.number v)) :
    v.isFinite = true := by
  -- along the references: what `n` reads is finite already
  induction n using hwf.induction generalizing v with
  | _ n ih =>
    rw [h n] at hv
    obtain ⟨c, hc, hvalue⟩ := Option.map_eq_some_iff.1 hv
    refine c.isFinite_shownBy (fun w hw => hfinite n w (hw ▸ hc)) (fun u hu w hw => ?_) hvalue
    obtain ⟨value, hvalue, hnumber⟩ := Option.bind_eq_some_iff.1 hw
    cases value with
    | number x =>
      cases hnumber
      exact ih u (refers_of_mem_references hc hu) hvalue
    | text s => cases hnumber
    | error e => cases hnumber

/-! ### The equations have a solution -/

open Classical in
/-- What the cells show, each computed from those that it refers to. -/
noncomputable def valuesBy (arith : Arithmetic) (cells : Cells) (hwf : WellFounded cells.Refers) :
    CellName → Option Value :=
  hwf.fix fun n values => (cells.contents? n).map (·.shownBy arith fun u =>
    if hu : cells.Refers u n then (values u hu).bind Value.number? else none)

/-- **Every meaning of the operators gives the cells values**, if no chain of references goes on
    without end. -/
theorem exists_showsBy (arith : Arithmetic) (hwf : WellFounded cells.Refers) :
    ∃ shown, cells.ShowsBy arith shown := by
  refine ⟨cells.valuesBy arith hwf, fun n => ?_⟩
  rw [valuesBy, hwf.fix_eq]
  cases hc : cells.contents? n with
  | none => rfl
  | some c =>
    refine congrArg some (Contents.shownBy_congr fun u hu => ?_)
    rw [dif_pos (refers_of_mem_references hc hu)]

end Cells

namespace Sheet

variable {s : Sheet}

/-- A coherent sheet shows what its contents stand for by the arithmetic in use. -/
theorem Coherent.showsBy (h : s.Coherent) : s.cells.ShowsBy ieeeArithmetic s.cells.value? := by
  intro n
  have hread : (fun u => (s.cells.value? u).bind Value.number?) = s.cells.number? :=
    funext fun u => Option.bind_map
  rw [hread, Cells.value?, Cells.contents?]
  cases hcell : s.cells[n]? with
  | none => rfl
  | some cell =>
    refine congrArg some ((h.consistent n cell hcell).trans ?_)
    cases cell.contents <;> rfl

/-- Numbers that are typed are finite. -/
theorem Typed.holdsFinite (h : s.Typed) : s.cells.HoldsFinite := by
  intro n v hv
  obtain ⟨input, hinput⟩ := h n _ hv
  exact Contents.isFinite_of_ofInput hinput

/-- Texts that are typed are not empty. -/
theorem Typed.ne_empty_text (h : s.Typed) (n : CellName) :
    s.cells.contents? n ≠ some (.text "") := by
  intro hn
  obtain ⟨input, hinput⟩ := h n _ hn
  obtain rfl := Contents.eq_of_ofInput hinput
  cases hinput

/-- Only a cell that holds a text shows one, and it is the same text. -/
theorem Coherent.contents?_of_text (h : s.Coherent) {n : CellName} {t : String}
    (ht : s.cells.value? n = some (.text t)) : s.cells.contents? n = some (.text t) := by
  rw [h.showsBy n] at ht
  obtain ⟨c, hc, hvalue⟩ := Option.map_eq_some_iff.1 ht
  cases c with
  | number v => cases hvalue
  | text s =>
    cases hvalue
    exact hc
  | formula f => exact absurd hvalue Value.ofResult_ne_text

end Sheet

namespace Session

/-- **The numbers that a sheet shows are finite**, after all actions:
    * If the numbers that its cells hold are finite, so are all numbers that they show.
    * This does not depend on what the operators compute: for every meaning of the operators there
      are values that the cells show, and in all such values the numbers are finite.
    * If all contents were typed or loaded, then the numbers held are finite and no text is empty,
      and every cell shows a finite number, a text that is not empty, or an error. -/
theorem run_finite (files : Files) (actions : List Action) :
    let cells := ((start files).run actions).sheet.cells
    (cells.HoldsFinite → ∀ n v, cells.value? n = some (.number v) → v.isFinite = true) ∧
    (cells.HoldsFinite → ∀ arith, (∃ shown, cells.ShowsBy arith shown) ∧
      ∀ shown, cells.ShowsBy arith shown →
        ∀ n v, shown n = some (.number v) → v.isFinite = true) ∧
    ((∀ a ∈ actions, a.IsTyped) →
      cells.HoldsFinite ∧ (∀ n, cells.contents? n ≠ some (.text "")) ∧
      ∀ n value, cells.value? n = some value →
        (∃ v, value = .number v ∧ v.isFinite = true) ∨ (∃ t, value = .text t ∧ t ≠ "") ∨
          ∃ e, value = .error e) := by
  intro cells
  have h : ((start files).run actions).sheet.Coherent := run_coherent files actions
  have hwf : WellFounded cells.Refers := h.wellFounded
  refine ⟨fun hfinite n v hv => h.showsBy.isFinite hwf hfinite hv, fun hfinite arith => ?_,
    fun hactions => ?_⟩
  · exact ⟨Cells.exists_showsBy arith hwf,
      fun shown hshown n v hv => hshown.isFinite hwf hfinite hv⟩
  · have htyped := run_typed files hactions
    refine ⟨htyped.holdsFinite, htyped.ne_empty_text, fun n value hvalue => ?_⟩
    -- Numbers were settled above; a text that is shown is what the cell holds.
    cases value with
    | number v => exact Or.inl ⟨v, rfl, h.showsBy.isFinite hwf htyped.holdsFinite hvalue⟩
    | text t =>
      refine Or.inr (Or.inl ⟨t, rfl, ?_⟩)
      rintro rfl
      exact htyped.ne_empty_text n (h.contents?_of_text hvalue)
    | error e => exact Or.inr (Or.inr ⟨e, rfl⟩)

end Session

end LiveSheet
