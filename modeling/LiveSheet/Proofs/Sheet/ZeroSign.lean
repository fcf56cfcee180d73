import LiveSheet.Proofs.Sheet.Reloading

namespace LiveSheet

/-!
# Sheets that differ in the signs of zeros only

A sheet that is loaded from its own text has the positive zero where the saved one had the negative
one.  No edit can tell the two apart: it is refused or accepted by both, gives the same cells to
evaluate, and leaves two sheets that again differ in nothing else.

* `Sheet.UpToZeroSign` — the relation.
* `Sheet.UpToZeroSign.set`, `Sheet.UpToZeroSign.enter` — it is kept by edits.
* `Sheet.UpToZeroSign.toJson`, `Sheet.UpToZeroSign.display` — the two are saved as the same text and
  show the same texts.
* `Sheet.exists_ofJson_upToZeroSign` — a sheet and what is loaded from its text.
-/

/-- The cell, with the positive zero for both zeros. -/
def Cell.unsignZero (c : Cell) : Cell := ⟨c.contents.unsignZero, c.value.unsignZero⟩

/-- Values that differ in the sign of a zero only are shown alike. -/
theorem Value.display_unsignZero (v : Value) : v.unsignZero.display = v.display := by
  cases v with
  | number x => exact x.text_unsignZero
  | text s => rfl
  | error e => rfl

namespace Sheet

/-- Two coherent sheets are the same, but for the signs of zeros. -/
structure UpToZeroSign (s t : Sheet) : Prop where
  coherent : s.Coherent
  coherent' : t.Coherent
  reloaded : ∀ n, s.reloaded n = t.reloaded n

variable {s t next : Sheet} {name : CellName} {contents : Option Contents} {order : List CellName}

namespace UpToZeroSign

/-- A sheet is the same as itself. -/
theorem refl (h : s.Coherent) : s.UpToZeroSign s := ⟨h, h, fun _ => rfl⟩

/-- Both zeros refer to no cell, so the graphs are the same. -/
theorem graph (h : s.UpToZeroSign t) : s.graph = t.graph := by
  refine h.coherent.graph_unique h.coherent' fun u v => ?_
  rw [Cells.Refers, Cells.Refers, ← newReferences_reloaded, h.reloaded, newReferences_reloaded]

/-- Cell by cell, the two hold and show the same, but for the signs of zeros. -/
theorem cells (h : s.UpToZeroSign t) (n : CellName) :
    s.cells[n]?.map Cell.unsignZero = t.cells[n]?.map Cell.unsignZero := by
  have hvalue := h.coherent'.unsignZero_value h.coherent h.reloaded n
  have hcontents : (s.cells[n]?.map Cell.contents).map Contents.unsignZero
      = (t.cells[n]?.map Cell.contents).map Contents.unsignZero := h.reloaded n
  cases hs : s.cells[n]? with
  | none => cases ht : t.cells[n]? <;> simp_all
  | some cell =>
    cases ht : t.cells[n]? with
    | none => simp_all
    | some cell' =>
      simp only [hs, ht, Option.map_some, Option.some.injEq] at hvalue hcontents ⊢
      rw [Cell.unsignZero, Cell.unsignZero, hvalue, hcontents]

/-! ### Edits -/

/-- **An edit makes no difference between the two.**  If one accepts it, so does the other, and the
    same cells are computed again. -/
theorem set (h : s.UpToZeroSign t) (hset : s.set name contents = .ok (next, order)) :
    ∃ next', t.set name contents = .ok (next', order) ∧ next.UpToZeroSign next' := by
  have hnext := h.coherent.set hset
  obtain ⟨hwalk, rfl⟩ := set_eq_ok_iff.1 hset
  rw [h.graph] at hwalk
  have hset' : t.set name contents = .ok (t.commit name contents order, order) :=
    set_eq_ok_iff.2 ⟨hwalk, rfl⟩
  refine ⟨_, hset', hnext, h.coherent'.set hset', fun n => ?_⟩
  rw [Sheet.reloaded, Sheet.reloaded, contents?_commit, contents?_commit]
  split
  · rfl
  · exact h.reloaded n

/-- Typing a text makes no difference between the two either, for it is an edit. -/
theorem enter {given input : String} (h : s.UpToZeroSign t)
    (henter : s.enter given input = .ok (next, order)) :
    ∃ next', t.enter given input = .ok (next', order) ∧ next.UpToZeroSign next' := by
  obtain ⟨cell, contents, hcell, hinput, hset⟩ := enter_eq_ok_iff.1 henter
  obtain ⟨next', hset', hnext⟩ := h.set hset
  exact ⟨next', enter_eq_ok_iff.2 ⟨cell, contents, hcell, hinput, hset'⟩, hnext⟩

/-! ### What can be seen of a sheet -/

/-- The entries of the two, in order, are the same but for the signs of zeros. -/
theorem entries (h : s.UpToZeroSign t) :
    s.cells.toList.map (fun entry => (entry.1, entry.2.unsignZero))
      = t.cells.toList.map fun entry => (entry.1, entry.2.unsignZero) := by
  have hmap : s.cells.map (fun _ c => c.unsignZero) = t.cells.map fun _ c => c.unsignZero := by
    refine Std.ExtTreeMap.ext_getElem? fun n => ?_
    rw [Std.ExtTreeMap.getElem?_map, Std.ExtTreeMap.getElem?_map]
    exact h.cells n
  have hlist := congrArg Std.ExtTreeMap.toList hmap
  rw [Std.ExtTreeMap.toList_map, Std.ExtTreeMap.toList_map] at hlist
  exact hlist

/-- What does not depend on the signs of zeros is the same of all cells of the two. -/
theorem map_cells {α : Type} (h : s.UpToZeroSign t) {f : CellName → Cell → α}
    (hf : ∀ n c, f n c.unsignZero = f n c) :
    (s.cells.toList.map fun entry => f entry.1 entry.2)
      = t.cells.toList.map fun entry => f entry.1 entry.2 := by
  have hentries := congrArg (List.map fun entry : CellName × Cell => f entry.1 entry.2) h.entries
  simpa only [List.map_map, Function.comp_def, hf] using hentries

/-- The two are saved as the same file, because zeros are written without their signs. -/
theorem toFile (h : s.UpToZeroSign t) : s.toFile = t.toFile := by
  have hmembers := h.map_cells (f := fun n c => (n.text, c.contents.toInput))
    fun n c => congrArg (Prod.mk n.text) c.contents.toInput_unsignZero
  exact congrArg SheetFile.ofMembers hmembers

/-- **The two are saved as the same text.** -/
theorem toJson (h : s.UpToZeroSign t) (layout : Layout) : s.toJson layout = t.toJson layout := by
  rw [Sheet.toJson, h.toFile, Sheet.toJson]

/-- **The two show the same texts.** -/
theorem display (h : s.UpToZeroSign t) (n : CellName) :
    (s.valueOf n).display = (t.valueOf n).display := by
  have hcell := h.cells n
  unfold valueOf
  cases hs : s.cells[n]? with
  | none =>
    rw [hs] at hcell
    rw [Option.map_eq_none_iff.1 hcell.symm]
  | some cell =>
    rw [hs] at hcell
    obtain ⟨cell', ht, hsame⟩ := Option.map_eq_some_iff.1 hcell.symm
    rw [ht]
    show cell.value.display = cell'.value.display
    rw [← cell.value.display_unsignZero, ← cell'.value.display_unsignZero]
    exact congrArg (fun c => c.value.display) hsame.symm

end UpToZeroSign

/-- **A sheet that is loaded from its own text** is the saved one, but for the signs of zeros. -/
theorem exists_ofJson_upToZeroSign (h : s.Coherent) (htyped : s.Typed) (layout : Layout) :
    ∃ t, ofJson (s.toJson layout) = .ok t ∧ s.UpToZeroSign t := by
  obtain ⟨t, hjson, ht, -, hcontents⟩ := exists_ofJson_toJson h htyped layout
  exact ⟨t, hjson, h, ht, fun n => (reloaded_of_contents?_eq hcontents n).symm⟩

end Sheet

end LiveSheet
