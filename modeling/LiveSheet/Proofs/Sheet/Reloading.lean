import LiveSheet.Proofs.Cell.Retyping
import LiveSheet.Proofs.Formula.ZeroSign
import LiveSheet.Proofs.Sheet.Loading
import LiveSheet.Proofs.Storage.Writing

namespace LiveSheet

/-!
# Saving a sheet and loading it

The cells are typed again in the order of their names, not in that of their references, so on the
way formulas are evaluated with cells that are still missing.  Only the contents that are reached
count: the values in the end are those that the contents stand for.

* `Sheet.Typed` — all contents were typed.
* `Sheet.exists_ofFile_toFile`, `Sheet.exists_ofJson_toJson` — a sheet is loaded from its own file
  and from the text of it.
* `Sheet.contents?_ofJson_toJson` — what a sheet holds that is loaded from the text of another one.
* `Sheet.Coherent.valueOf_upToZeroSign` — the values of two sheets whose contents agree but for the
  signs of zeros.
-/

variable {s t : Sheet}

namespace Sheet

/-! ### Typed contents -/

/-- All contents of a sheet were typed. -/
def Typed (s : Sheet) : Prop :=
  ∀ n c, s.cells.contents? n = some c → Contents.IsTyped (some c)

/-- In the empty sheet there is nothing that was not typed. -/
theorem typed_empty : empty.Typed := by
  intro n c h
  cases h

/-- Typing keeps contents typed. -/
theorem Typed.set {next : Sheet} {name : CellName} {contents : Option Contents}
    {order : List CellName} (h : s.Typed) (hcontents : Contents.IsTyped contents)
    (hset : s.set name contents = .ok (next, order)) : next.Typed := by
  intro n c hc
  rw [contents?_set hset] at hc
  split at hc
  · rw [← hc]
    exact hcontents
  · exact h n c hc

/-! ### The texts of a sheet -/

/-- A file has the text of each cell that holds something. -/
theorem mem_members_toFile {name input : String} : (name, input) ∈ s.toFile.members ↔
    ∃ n c, s.cells.contents? n = some c ∧ n.text = name ∧ c.toInput = input := by
  -- Cells have different texts, so no member of the file hides another.
  have hpairwise : (s.cells.toList.map fun entry =>
      (entry.1.text, entry.2.contents.toInput)).Pairwise fun m n => m.1 ≠ n.1 := by
    refine List.pairwise_map.2 (Std.ExtTreeMap.distinct_keys_toList.imp fun hne heq => hne ?_)
    rw [CellName.ext_text heq]
    exact Std.ReflCmp.compare_self
  rw [SheetFile.mem_members_iff, toFile, SheetFile.getElem?_ofMembers hpairwise, List.mem_map]
  constructor
  · rintro ⟨⟨n, cell⟩, hmem, heq⟩
    cases heq
    refine ⟨n, cell.contents, ?_, rfl, rfl⟩
    rw [Cells.contents?, Std.ExtTreeMap.mem_toList_iff_getElem?_eq_some.1 hmem]
    rfl
  · rintro ⟨n, c, hc, rfl, rfl⟩
    obtain ⟨cell, hcell, rfl⟩ := Option.map_eq_some_iff.1 hc
    exact ⟨(n, cell), Std.ExtTreeMap.mem_toList_iff_getElem?_eq_some.2 hcell, rfl⟩

/-- The contents of a sheet, with the positive zero for both zeros. -/
def reloaded (s : Sheet) (n : CellName) : Option Contents :=
  (s.cells.contents? n).map Contents.unsignZero

/-- What was loaded once is loaded again as it is. -/
theorem reloaded_of_contents?_eq (h : ∀ n, t.cells.contents? n = s.reloaded n) (n : CellName) :
    t.reloaded n = s.reloaded n := by
  rw [reloaded, h, reloaded, Option.map_map]
  exact congrArg (Option.map · _) (funext Contents.unsignZero_unsignZero)

/-- The references of the contents do not depend on the signs of zeros. -/
theorem newReferences_reloaded (n : CellName) :
    newReferences (s.reloaded n) = newReferences (s.cells.contents? n) := by
  rw [reloaded]
  cases s.cells.contents? n with
  | none => rfl
  | some c => exact c.references_unsignZero

/-- The file of a sheet gives the cells their contents again, but for the signs of zeros. -/
theorem gives_toFile_iff (htyped : s.Typed) {n : CellName} {c : Contents} :
    Gives s.toFile.members n c ↔ s.reloaded n = some c := by
  constructor
  · rintro ⟨name, input, hmem, hn, hinput⟩
    obtain ⟨n', c', hc', rfl, rfl⟩ := mem_members_toFile.1 hmem
    obtain rfl : n' = n := Option.some.inj (n'.ofText?_text.symm.trans hn)
    obtain ⟨typed, htyped⟩ := htyped n' c' hc'
    rw [Contents.ofInput_toInput htyped, Except.ok.injEq] at hinput
    rw [reloaded, hc']
    exact hinput
  · intro hc
    obtain ⟨c', hc', rfl⟩ := Option.map_eq_some_iff.1 hc
    obtain ⟨typed, htyped⟩ := htyped n c' hc'
    exact ⟨n.text, c'.toInput, mem_members_toFile.2 ⟨n, c', hc', rfl, rfl⟩, n.ofText?_text,
      Contents.ofInput_toInput htyped⟩

/-- The file of a sheet can be loaded. -/
theorem loadable_toFile (h : s.Coherent) (htyped : s.Typed) : Loadable s.toFile.members where
  distinct := by
    -- names are in upper case already, so none is repeated
    have hnames : normalizedNames s.toFile.members = s.toFile.members.map Prod.fst := by
      refine List.map_congr_left ?_
      rintro ⟨name, input⟩ hmem
      obtain ⟨n, -, -, rfl, -⟩ := mem_members_toFile.1 hmem
      exact n.normalized_text
    rw [hnames]
    exact List.pairwise_map.2 s.toFile.members_pairwise
  names := by
    rintro ⟨name, input⟩ hmem
    obtain ⟨n, -, -, rfl, -⟩ := mem_members_toFile.1 hmem
    exact (CellName.exists_ofText?_iff n.text).1 ⟨n, n.ofText?_text⟩
  texts := by
    rintro ⟨name, input⟩ hmem
    obtain ⟨n, c, hc, rfl, rfl⟩ := mem_members_toFile.1 hmem
    obtain ⟨typed, htyped⟩ := htyped n c hc
    exact ⟨_, Contents.ofInput_toInput htyped⟩
  acyclic := by
    -- what is typed again refers to the same cells
    refine h.acyclic.mono fun u v ⟨f, hf, hu⟩ => (h.hasEdge_iff u v).2 ?_
    rw [Cells.Refers, ← newReferences_reloaded, (gives_toFile_iff htyped).1 hf]
    exact hu

/-- **A sheet can be loaded from its own file**, and then holds the same contents, but for the signs
    of zeros. -/
theorem exists_ofFile_toFile (h : s.Coherent) (htyped : s.Typed) :
    ∃ t, ofFile s.toFile = .ok t ∧ t.Coherent ∧ t.changed = false ∧
      ∀ n, t.cells.contents? n = s.reloaded n := by
  obtain ⟨t, ht⟩ := exists_ofMembers_iff.2 (loadable_toFile h htyped)
  refine ⟨t, ht, coherent_of_ofMembers ht, changed_of_ofMembers ht, fun n => Option.ext fun c => ?_⟩
  rw [contents?_ofMembers ht, gives_toFile_iff htyped]

/-- **A sheet can be loaded from its own text**, in either layout. -/
theorem exists_ofJson_toJson (h : s.Coherent) (htyped : s.Typed) (layout : Layout) :
    ∃ t, ofJson (s.toJson layout) = .ok t ∧ t.Coherent ∧ t.changed = false ∧
      ∀ n, t.cells.contents? n = s.reloaded n := by
  obtain ⟨t, hfile, ht⟩ := exists_ofFile_toFile h htyped
  exact ⟨t, ofJson_eq_ok_iff.2 ⟨_, s.toFile.read?_write layout, hfile⟩, ht⟩

/-- A sheet that is loaded from the text of another one holds what the texts of the other's contents
    stand for. -/
theorem contents?_ofJson_toJson {layout : Layout} (h : ofJson (s.toJson layout) = .ok t)
    {n : CellName} {c d : Contents} (hc : s.cells.contents? n = some c) :
    t.cells.contents? n = some d ↔ Contents.ofInput c.toInput = .ok (some d) := by
  obtain ⟨f, hread, hfile⟩ := ofJson_eq_ok_iff.1 h
  obtain rfl : s.toFile = f := Option.some.inj ((s.toFile.read?_write layout).symm.trans hread)
  rw [contents?_ofMembers hfile]
  constructor
  · rintro ⟨name, input, hmem, hname, hd⟩
    obtain ⟨n', c', hc', rfl, rfl⟩ := mem_members_toFile.1 hmem
    obtain rfl : n' = n := Option.some.inj (n'.ofText?_text.symm.trans hname)
    obtain rfl : c' = c := Option.some.inj (hc'.symm.trans hc)
    exact hd
  · intro hd
    exact ⟨n.text, c.toInput, mem_members_toFile.2 ⟨n, c, hc, rfl, rfl⟩, n.ofText?_text, hd⟩

variable (hcontents : ∀ n, t.cells.contents? n = s.reloaded n)

include hcontents

/-- Sheets with the same contents, but for the signs of zeros, have the same cells. -/
theorem names_of_reloaded : t.names = s.names := by
  have hcells : t.cells.map (fun _ _ => ()) = s.cells.map fun _ _ => () := by
    refine Std.ExtTreeMap.ext_getElem? fun n => ?_
    have hn := congrArg (Option.map fun _ => ()) (hcontents n)
    rw [reloaded, Cells.contents?, Cells.contents?, Option.map_map, Option.map_map,
      Option.map_map] at hn
    rw [Std.ExtTreeMap.getElem?_map, Std.ExtTreeMap.getElem?_map]
    exact hn
  have hkeys := congrArg Std.ExtTreeMap.keys hcells
  rw [Std.ExtTreeMap.keys_map, Std.ExtTreeMap.keys_map] at hkeys
  exact hkeys

/-- Typed contents compare equal in the two sheets, because zeros do. -/
theorem same_contentsOf (htyped : s.Typed) (n : CellName) :
    (t.contentsOf n).same (s.contentsOf n) = true := by
  have hn := hcontents n
  rw [reloaded, Cells.contents?] at hn
  unfold contentsOf
  cases hcell : s.cells[n]? with
  | none =>
    rw [Cells.contents?, hcell] at hn
    rw [Option.map_eq_none_iff.1 hn]
    rfl
  | some cell =>
    have hc : s.cells.contents? n = some cell.contents := by rw [Cells.contents?, hcell]; rfl
    rw [hc] at hn
    obtain ⟨cell', hcell', hsame⟩ := Option.map_eq_some_iff.1 hn
    obtain ⟨input, hinput⟩ := htyped n cell.contents hc
    rw [hcell']
    show cell'.contents.same cell.contents = true
    rw [hsame]
    exact Contents.same_unsignZero hinput

end Sheet

/-! ### Values -/

/-- The value, with the positive zero for both zeros. -/
def Value.unsignZero : Value → Value
  | .number v => .number v.unsignZero
  | v => v

/-- Two values are the same, or both are zeros. -/
def Value.UpToZeroSign : Value → Value → Prop
  | .number x, .number y => x.UpToZeroSign y
  | v, w => v = w

/-- Values that agree without the signs of zeros agree but for these. -/
theorem Value.upToZeroSign_of_unsignZero {v w : Value} (h : v.unsignZero = w.unsignZero) :
    v.UpToZeroSign w := by
  cases v with
  | number x =>
    cases w with
    | number y => exact Double.upToZeroSign_iff.2 (Value.number.inj h)
    | text s => cases h
    | error e => cases h
  | text s =>
    cases w with
    | number y => cases h
    | text s' => exact h
    | error e => cases h
  | error e =>
    cases w with
    | number y => cases h
    | text s => cases h
    | error e' => exact h

/-- The sign of a zero can be taken off a value or off its number. -/
theorem Value.number?_unsignZero (v : Value) :
    v.unsignZero.number? = v.number?.map Double.unsignZero := by
  cases v <;> rfl

/-- The sign of a zero can be taken off a value or off the result that it shows. -/
theorem Value.unsignZero_ofResult (result : Except EvalError Double) :
    (Value.ofResult result).unsignZero = Value.ofResult (result.map Double.unsignZero) := by
  cases result <;> rfl

/-- Contents that agree but for the sign of a zero stand for values that do, when the cells that
    they read differ in nothing else. -/
theorem Contents.unsignZero_shown {lookup lookup' : CellName → Option Double} {c c' : Contents}
    (hc : c.unsignZero = c'.unsignZero)
    (h : ∀ name ∈ c.references,
      (lookup name).map Double.unsignZero = (lookup' name).map Double.unsignZero) :
    (c.shown lookup).unsignZero = (c'.shown lookup').unsignZero := by
  -- The contents' own zero does not matter; what is left is one formula and two lookups.
  have hsingle : ∀ d : Contents,
      (d.unsignZero.shown lookup).unsignZero = (d.shown lookup).unsignZero := by
    intro d
    cases d with
    | number v => exact congrArg Value.number v.unsignZero_unsignZero
    | text s => rfl
    | formula f => rfl
  cases c' with
  | number v => rw [← hsingle c, hc]; exact hsingle (.number v)
  | text s => rw [← hsingle c, hc]; rfl
  | formula f =>
    rw [← hsingle c, hc]
    rw [← c.references_unsignZero, hc] at h
    show (Value.ofResult _).unsignZero = (Value.ofResult _).unsignZero
    rw [Value.unsignZero_ofResult, Value.unsignZero_ofResult, f.evaluate_unsignZero h]

namespace Sheet

/-- **Sheets with the same contents show the same values**, all but for the signs of zeros. -/
theorem Coherent.unsignZero_value (hs : s.Coherent) (ht : t.Coherent)
    (hcontents : ∀ n, t.reloaded n = s.reloaded n) (n : CellName) :
    t.cells[n]?.map (·.value.unsignZero) = s.cells[n]?.map (·.value.unsignZero) := by
  -- along the references: the cells that `n` refers to show the same already
  induction n using hs.wellFounded.induction with
  | _ n ih =>
    have hn : (t.cells[n]?.map Cell.contents).map Contents.unsignZero
        = (s.cells[n]?.map Cell.contents).map Contents.unsignZero := hcontents n
    cases hcell : s.cells[n]? with
    | none =>
      rw [hcell] at hn
      rw [Option.map_eq_none_iff.1 (Option.map_eq_none_iff.1 hn)]
    | some cell =>
      rw [hcell] at hn
      obtain ⟨c', hc', hsame⟩ := Option.map_eq_some_iff.1 hn
      obtain ⟨cell', hcell', rfl⟩ := Option.map_eq_some_iff.1 hc'
      have hread : ∀ u ∈ cell'.contents.references,
          (t.cells.number? u).map Double.unsignZero =
            (s.cells.number? u).map Double.unsignZero := by
        intro u hu
        rw [← Contents.references_unsignZero, hsame, Contents.references_unsignZero] at hu
        have hrefers : s.cells.Refers u n := by
          rw [Cells.Refers, Cells.contents?, hcell]
          exact hu
        have hvalue := congrArg (Option.bind · Value.number?) (ih u hrefers)
        simpa [Cells.number?, Option.bind_map, Option.map_bind, Function.comp_def,
          Value.number?_unsignZero] using hvalue
      rw [hcell', Option.map_some, Option.map_some, ht.consistent n cell' hcell',
        hs.consistent n cell hcell]
      exact congrArg some (Contents.unsignZero_shown hsame hread)

/-- The query for values answers the same of both sheets, but for the signs of zeros. -/
theorem Coherent.valueOf_upToZeroSign (hs : s.Coherent) (ht : t.Coherent)
    (hcontents : ∀ n, t.cells.contents? n = s.reloaded n) (n : CellName) :
    (t.valueOf n).UpToZeroSign (s.valueOf n) := by
  have hvalue := hs.unsignZero_value ht (reloaded_of_contents?_eq hcontents) n
  refine Value.upToZeroSign_of_unsignZero ?_
  unfold valueOf
  cases hcell : s.cells[n]? with
  | none =>
    rw [hcell] at hvalue
    rw [Option.map_eq_none_iff.1 hvalue]
  | some cell =>
    rw [hcell] at hvalue
    obtain ⟨cell', hcell', hsame⟩ := Option.map_eq_some_iff.1 hvalue
    rw [hcell']
    exact hsame

end Sheet

end LiveSheet
