import LiveSheet.Proofs.Formula.Reads
import LiveSheet.Sheet.Edit

namespace LiveSheet

/-!
# Recalculating cells in order

A cell is consistent when it shows what its contents stand for, given the numbers that the other
cells show.  Giving a cell new contents leaves it and the cells that depend on it inconsistent;
recalculating them in an order that respects the references makes all cells consistent again.

* `Contents.shown` — the value that contents stand for.
* `Cells.ConsistentAt` — a cell is consistent with the values stored.
* `Cells.Refers` — a cell holds a formula that refers to another.
* `Cells.recalculate_consistentAt` — recalculating in order.
-/

/-- The value that contents stand for, when `lookup` gives the number that each cell shows. -/
def Contents.shown (lookup : CellName → Option Double) : Contents → Value
  | .number v => .number v
  | .text s => .text s
  | .formula f => Value.ofResult (f.evaluate ieeeArithmetic lookup).result

/-- Contents read nothing but the cells they refer to. -/
theorem Contents.shown_congr {lookup lookup' : CellName → Option Double} {c : Contents}
    (h : ∀ name ∈ c.references, lookup name = lookup' name) : c.shown lookup = c.shown lookup' := by
  cases c with
  | number v => rfl
  | text s => rfl
  | formula f =>
    show Value.ofResult _ = Value.ofResult _
    rw [f.evaluate_congr h]

/-- The result of an evaluation is a number or an error. -/
theorem Value.ofResult_ne_text {result : Except EvalError Double} {t : String} :
    Value.ofResult result ≠ .text t := by
  cases result with
  | ok v => exact fun h => Value.noConfusion h
  | error e => exact fun h => Value.noConfusion h

/-- Only formulas refer to cells. -/
theorem Sheet.mem_newReferences {contents : Option Contents} {u : CellName} :
    u ∈ newReferences contents ↔ ∃ f, contents = some (.formula f) ∧ u ∈ f.references := by
  constructor
  · intro h
    cases contents with
    | none => exact absurd h Std.ExtTreeSet.not_mem_empty
    | some c =>
      cases c with
      | number v => exact absurd h Std.ExtTreeSet.not_mem_empty
      | text s => exact absurd h Std.ExtTreeSet.not_mem_empty
      | formula f => exact ⟨f, rfl, h⟩
  · rintro ⟨f, rfl, h⟩
    exact h

namespace Cells

/-- What a cell holds; an empty cell holds nothing. -/
def contents? (cells : Cells) (name : CellName) : Option Contents := cells[name]?.map Cell.contents

/-- The cell `reader` holds a formula that refers to `source`. -/
def Refers (cells : Cells) (source reader : CellName) : Prop :=
  source ∈ Sheet.newReferences (cells.contents? reader)

/-- A cell shows what its contents stand for. -/
def ConsistentAt (cells : Cells) (name : CellName) : Prop :=
  ∀ cell, cells[name]? = some cell → cell.value = cell.contents.shown cells.number?

variable {cells cells' : Cells} {name : CellName}

/-- A cell that has a formula holds it. -/
theorem formula?_eq_some {f : Formula} :
    cells.formula? name = some f ↔ cells.contents? name = some (.formula f) := by
  rw [formula?, contents?]
  cases cells[name]? with
  | none => simp
  | some cell =>
    obtain ⟨contents, value⟩ := cell
    cases contents <;> simp [Cell.formula?]

/-- Only cells with a formula refer to others. -/
theorem refers_iff {u v : CellName} :
    cells.Refers u v ↔ ∃ f, cells.formula? v = some f ∧ u ∈ f.references := by
  simp only [Refers, Sheet.mem_newReferences, formula?_eq_some]

/-- A cell stays consistent while it and the numbers it reads stay the same. -/
theorem ConsistentAt.congr (h : cells.ConsistentAt name) (hcell : cells'[name]? = cells[name]?)
    (hread : ∀ u, cells.Refers u name → cells'.number? u = cells.number? u) :
    cells'.ConsistentAt name := by
  intro cell hstored
  rw [hcell] at hstored
  rw [h cell hstored]
  refine Contents.shown_congr fun u hu => (hread u ?_).symm
  show u ∈ Sheet.newReferences (cells[name]?.map Cell.contents)
  rw [hstored]
  exact hu

/-- The same cell shows the same number. -/
theorem number?_congr (h : cells'[name]? = cells[name]?) :
    cells'.number? name = cells.number? name := by
  rw [number?, h, number?]

/-! ### Giving a cell new contents -/

section Put

variable {contents : Option Contents}

/-- New contents for a cell change no other cell. -/
theorem getElem?_put_of_ne {n : CellName} (h : n ≠ name) :
    (cells.put name contents)[n]? = cells[n]? := by
  have hne : compare name n ≠ .eq := fun heq => h (Std.LawfulEqOrd.eq_of_compare heq).symm
  cases contents with
  | some c => rw [put, Std.ExtTreeMap.getElem?_insert, if_neg hne]
  | none => rw [put, Std.ExtTreeMap.getElem?_erase, if_neg hne]

/-- The cell itself is made of its new contents. -/
theorem getElem?_put_self :
    (cells.put name contents)[name]? = contents.map Cell.ofContents := by
  cases contents with
  | some c => exact Std.ExtTreeMap.getElem?_insert_self
  | none => exact Std.ExtTreeMap.getElem?_erase_self

/-- New contents are held by their cell and by no other. -/
theorem contents?_put (n : CellName) :
    (cells.put name contents).contents? n = if n = name then contents else cells.contents? n := by
  by_cases hn : n = name
  · subst hn
    rw [if_pos rfl, contents?, getElem?_put_self]
    cases contents with
    | none => rfl
    | some c => cases c <;> rfl
  · rw [if_neg hn, contents?, getElem?_put_of_ne hn, contents?]

/-- New contents other than a formula show what they stand for at once. -/
theorem consistentAt_put_self (h : (cells.put name contents).formula? name = none) :
    (cells.put name contents).ConsistentAt name := by
  intro cell hcell
  -- The new contents are no formula, or the cell would have one.
  have hplain : ∀ f, contents ≠ some (.formula f) := by
    rintro f rfl
    have hcontents : (cells.put name (some (.formula f))).contents? name = some (.formula f) := by
      rw [contents?_put, if_pos rfl]
    rw [formula?_eq_some.2 hcontents] at h
    cases h
  rw [getElem?_put_self] at hcell
  cases contents with
  | none => cases hcell
  | some c =>
    cases hcell
    cases c with
    | number v => rfl
    | text s => rfl
    | formula f => exact absurd rfl (hplain f)

end Put

/-! ### Recalculating one cell -/

/-- Recalculating a cell changes no other cell. -/
theorem getElem?_refresh_of_ne {n : CellName} (h : n ≠ name) :
    (cells.refresh name)[n]? = cells[n]? := by
  unfold refresh
  split
  · rw [Std.ExtTreeMap.getElem?_insert, if_neg]
    exact fun heq => h (Std.LawfulEqOrd.eq_of_compare heq).symm
  · rfl

/-- There is nothing to recalculate in a cell without a formula. -/
theorem refresh_of_formula?_eq_none (h : cells.formula? name = none) :
    cells.refresh name = cells := by
  unfold refresh
  rw [h]

/-- A recalculated cell shows what its formula stands for in the cells as they were. -/
theorem getElem?_refresh_self {f : Formula} (h : cells.formula? name = some f) :
    (cells.refresh name)[name]?
      = some ⟨.formula f, (Contents.formula f).shown cells.number?⟩ := by
  unfold refresh
  rw [h]
  exact Std.ExtTreeMap.getElem?_insert_self

/-- Recalculating a cell changes what no cell holds. -/
theorem contents?_refresh (n : CellName) :
    (cells.refresh name).contents? n = cells.contents? n := by
  by_cases hn : n = name
  · subst hn
    cases hf : cells.formula? n with
    | none => rw [refresh_of_formula?_eq_none hf]
    | some f =>
      rw [formula?_eq_some.1 hf, contents?, getElem?_refresh_self hf]
      rfl
  · rw [contents?, getElem?_refresh_of_ne hn, contents?]

/-- Recalculating a cell changes no reference. -/
theorem refers_refresh {u v : CellName} : (cells.refresh name).Refers u v ↔ cells.Refers u v := by
  rw [Refers, contents?_refresh, Refers]

/-- Recalculating a cell changes no formula. -/
theorem formula?_refresh (n : CellName) : (cells.refresh name).formula? n = cells.formula? n := by
  refine Option.ext fun f => ?_
  rw [formula?_eq_some, contents?_refresh, formula?_eq_some]

/-- A recalculated cell is consistent, unless it refers to itself. -/
theorem consistentAt_refresh_self {f : Formula} (h : cells.formula? name = some f)
    (hself : ¬ cells.Refers name name) : (cells.refresh name).ConsistentAt name := by
  intro cell hcell
  rw [getElem?_refresh_self h] at hcell
  cases hcell
  show (Contents.formula f).shown cells.number? = (Contents.formula f).shown _
  refine Contents.shown_congr fun u hu => ?_
  have hne : u ≠ name := by
    rintro rfl
    exact hself (refers_iff.2 ⟨f, h, hu⟩)
  exact (number?_congr (getElem?_refresh_of_ne hne)).symm

/-! ### Recalculating several cells -/

/-- Recalculating several cells changes what no cell holds. -/
theorem contents?_recalculate (order : List CellName) (n : CellName) :
    (cells.recalculate order).contents? n = cells.contents? n := by
  induction order generalizing cells with
  | nil => rfl
  | cons u rest ih => exact ih.trans (contents?_refresh n)

/-- Recalculating several cells changes no reference. -/
theorem refers_recalculate {order : List CellName} {u v : CellName} :
    (cells.recalculate order).Refers u v ↔ cells.Refers u v := by
  rw [Refers, contents?_recalculate, Refers]

/-- Cells that are not recalculated stay as they are. -/
theorem getElem?_recalculate_of_not_mem {order : List CellName} {n : CellName} (h : n ∉ order) :
    (cells.recalculate order)[n]? = cells[n]? := by
  induction order generalizing cells with
  | nil => rfl
  | cons u rest ih =>
    rw [List.mem_cons, not_or] at h
    exact (ih h.2).trans (getElem?_refresh_of_ne h.1)

/-- **Recalculating in order makes all cells consistent**, if each cell in the order comes before
    those that refer to it, and all cells outside the order or without a formula are consistent. -/
theorem recalculate_consistentAt {order : List CellName} (hnodup : order.Nodup)
    (horder : ∀ u ∈ order, ∀ v, cells.Refers u v → [u, v].Sublist order)
    (hrest : ∀ n, n ∉ order ∨ cells.formula? n = none → cells.ConsistentAt n) (n : CellName) :
    (cells.recalculate order).ConsistentAt n := by
  induction order generalizing cells with
  | nil => exact hrest n (Or.inl List.not_mem_nil)
  | cons u rest ih =>
    -- after one refresh the same holds of the rest: only cells in it may be inconsistent
    obtain ⟨hu, hnodup⟩ := List.nodup_cons.1 hnodup
    -- the first cell cannot refer to itself: it would have to come after itself
    have hself : ¬ cells.Refers u u := by
      intro h
      have hsub := horder u List.mem_cons_self u h
      rw [List.cons_sublist_cons, List.singleton_sublist] at hsub
      exact hu hsub
    show ((cells.refresh u).recalculate rest).ConsistentAt n
    refine ih hnodup ?_ ?_
    · intro w hw v hv
      have hsub := horder w (List.mem_cons_of_mem u hw) v (refers_refresh.1 hv)
      rcases List.sublist_cons_iff.1 hsub with hrest | ⟨l, hl, -⟩
      · exact hrest
      · cases hl
        exact absurd hw hu
    · intro m hm
      rw [formula?_refresh] at hm
      by_cases hmu : m = u
      · subst hmu
        cases hf : cells.formula? m with
        | none =>
          rw [refresh_of_formula?_eq_none hf]
          exact hrest m (Or.inr hf)
        | some f => exact consistentAt_refresh_self hf hself
      · have hold : cells.ConsistentAt m :=
          hrest m (hm.imp_left fun hmrest => List.not_mem_cons_of_ne_of_not_mem hmu hmrest)
        refine hold.congr (getElem?_refresh_of_ne hmu) fun w hw => ?_
        refine number?_congr (getElem?_refresh_of_ne ?_)
        -- a cell that refers to the first one still comes after it
        rintro rfl
        rcases hm with hmrest | hplain
        · have hsub := horder w List.mem_cons_self m hw
          rw [List.cons_sublist_cons, List.singleton_sublist] at hsub
          exact hmrest hsub
        · obtain ⟨f, hf, -⟩ := refers_iff.1 hw
          rw [hplain] at hf
          cases hf

end Cells

end LiveSheet
