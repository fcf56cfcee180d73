import LiveSheet.Proofs.Files.Writing
import LiveSheet.Proofs.Session.Reloading
import LiveSheet.Proofs.Storage.Size

namespace LiveSheet

/-!
# Saved sheets can be opened again

A sheet is saved whatever the length of its text, but a file is opened only up to a limit.  Up to
this limit, what was saved is what is opened.

* `Files.openSheet_of_find` — what opening a file gives.
* `Session.reopen` — a saved sheet is opened again, unless its text is too large.
* `Session.largeSum_not_reopened` — a sheet whose text is too large.
-/

namespace Files

/-- The file that a path leads to is opened, if it is not too large. -/
theorem openSheet_of_find {fs : Files} {path text : String}
    (h : fs.find path = .ok (.file text.toUTF8)) :
    fs.openSheet path
      = if maxSheetBytes < text.utf8ByteSize then
          .error (.tooLarge path text.utf8ByteSize maxSheetBytes)
        else loadSheet text := by
  simp only [openSheet, size_of_find h, readText_of_find h]

end Files

namespace Sheet

variable {s : Sheet}

/-- A sheet is loaded from its text, in either layout. -/
theorem exists_loadSheet_toJson (h : s.Coherent) (htyped : s.Typed) (layout : Layout) :
    ∃ t, Files.loadSheet (s.toJson layout) = .ok t ∧ t.names = s.names ∧
      (∀ n, (t.contentsOf n).same (s.contentsOf n) = true) ∧ t.graph = s.graph := by
  obtain ⟨t, hjson, ht, -, hcontents⟩ := exists_ofJson_toJson h htyped layout
  refine ⟨t, ?_, names_of_reloaded hcontents, same_contentsOf hcontents htyped,
    ht.graph_unique h fun u v => ?_⟩
  · rw [Files.loadSheet, hjson]
    rfl
  · rw [Cells.Refers, hcontents, newReferences_reloaded, Cells.Refers]

end Sheet

namespace Session

variable {s next : Session} {path : String} {layout : Layout} {order : List CellName}

/-- Saving leaves the text of the sheet where the path leads to. -/
theorem find_of_save (h : s.attempt (.save path layout) = .ok (next, order)) :
    next.files.find path = .ok (.file (s.sheet.toJson layout).toUTF8) := by
  simp only [attempt, Files.saveSheet] at h
  cases hwrite : s.files.writeText path (s.sheet.toJson layout) with
  | error e =>
    rw [hwrite] at h
    cases h
  | ok written =>
    rw [hwrite] at h
    cases h
    exact Files.find_writeText hwrite

/-- Typing touches no file. -/
theorem files_perform_enter (s : Session) (name input : String) :
    (s.perform (.enter name input)).files = s.files := by
  cases h : s.attempt (.enter name input) with
  | error e => rw [perform_of_error h]
  | ok result =>
    rw [perform_of_ok h]
    exact (edited_eq_ok_iff.1 h).2

/-- A sheet is saved at every path that a file can be put at. -/
theorem exists_save_of_target {place : Place} (h : s.files.target path = .ok place)
    (layout : Layout) : ∃ next order, s.attempt (.save path layout) = .ok (next, order) := by
  refine ⟨⟨s.sheet.saved, s.files.put place (.file (s.sheet.toJson layout).toUTF8)⟩, [], ?_⟩
  simp only [attempt, Files.saveSheet, Files.writeText, h]
  rfl

/-- **A saved sheet is opened again, unless its text is too large.**  After any actions that type
    texts, load sheets and save them, a sheet that is saved in either layout is opened from any
    files in which the path still leads to what was saved:
    * If the text is not larger than the limit, the sheet that is opened has the same cells and in
      them equal contents, numbers being compared as numbers, and the same graph.
    * If it is larger, it is refused for its size. -/
theorem reopen (files : Files) {actions : List Action} (h : ∀ a ∈ actions, a.IsTyped)
    (path : String) (layout : Layout) :
    let s := (start files).run actions
    let size := (s.sheet.toJson layout).utf8ByteSize
    ∀ next order, s.attempt (.save path layout) = .ok (next, order) →
      ∀ later : Files, later.find path = next.files.find path →
        (size ≤ maxSheetBytes → ∃ t, later.openSheet path = .ok t ∧
          t.names = s.sheet.names ∧ (∀ n, (t.contentsOf n).same (s.sheet.contentsOf n) = true) ∧
          t.graph = s.sheet.graph) ∧
        (maxSheetBytes < size →
          later.openSheet path = .error (.tooLarge path size maxSheetBytes)) := by
  intro s size next order hsave later hlater
  -- What is opened is the text that was saved, so only its size decides.
  rw [find_of_save hsave] at hlater
  have hopen := Files.openSheet_of_find hlater
  refine ⟨fun hsize => ?_, fun hsize => ?_⟩
  · obtain ⟨t, hload, hsame⟩ :=
      Sheet.exists_loadSheet_toJson (run_coherent files actions) (run_typed files h) layout
    refine ⟨t, ?_, hsame⟩
    rw [hopen, if_neg (Nat.not_lt.2 hsize)]
    exact hload
  · rw [hopen, if_pos hsize]

/-! ### A sheet that is opened again -/

/-- The cell of a text with quotation marks. -/
def quotedCell : CellName := ⟨"B2", by decide⟩

/-- The cell of a text with control characters. -/
def controlCell : CellName := ⟨"A2", by decide⟩

/-- The session types the two texts, whose characters are escaped when they are saved. -/
def quoting : List Action := [.enter "b2" "say \"hi\"", .enter "a2" "\x01\n"]

/-- The sheet after the first text. -/
def quotedSheet : Sheet :=
  Sheet.empty.commit quotedCell (some (.text "say \"hi\"")) [quotedCell]

/-- The sheet after both texts. -/
def quotingSheet : Sheet :=
  quotedSheet.commit controlCell (some (.text "\x01\n")) [controlCell]

/-- The session succeeds in typing both texts. -/
theorem run_quoting : (start ∅).run quoting = ⟨quotingSheet, ∅⟩ := by
  have hquoted : Sheet.empty.enter "b2" "say \"hi\"" = .ok (quotedSheet, [quotedCell]) := by
    refine Sheet.enter_eq_ok_iff.2
      ⟨quotedCell, some (.text "say \"hi\""), by decide +kernel, rfl, ?_⟩
    exact Sheet.set_eq_ok_iff.2 ⟨by cbv, rfl⟩
  have hcontrol : quotedSheet.enter "a2" "\x01\n" = .ok (quotingSheet, [controlCell]) := by
    refine Sheet.enter_eq_ok_iff.2 ⟨controlCell, some (.text "\x01\n"), by decide +kernel, rfl, ?_⟩
    exact Sheet.set_eq_ok_iff.2 ⟨by cbv, rfl⟩
  have hfirst : (start ∅).perform (.enter "b2" "say \"hi\"") = ⟨quotedSheet, ∅⟩ :=
    perform_of_ok (edited_eq_ok_iff.2 ⟨hquoted, rfl⟩)
  have hsecond : perform ⟨quotedSheet, ∅⟩ (.enter "a2" "\x01\n") = ⟨quotingSheet, ∅⟩ :=
    perform_of_ok (edited_eq_ok_iff.2 ⟨hcontrol, rfl⟩)
  rw [quoting, run, List.foldl_cons, hfirst, List.foldl_cons, hsecond, List.foldl_nil]

/-- From no files, `say "hi"` is typed into `B2` and a control character with a line end into `A2`.
    The sheet is saved as `s.json`, below the limit, and opened from there with both cells. -/
theorem reopen_quoting : (∀ a ∈ quoting, a.IsTyped) ∧ ∃ next order,
    ((start ∅).run quoting).attempt (.save "s.json" .pretty) = .ok (next, order) ∧
      ∃ t, next.files.openSheet "s.json" = .ok t ∧
        t.names = ((start ∅).run quoting).sheet.names := by
  have htyped : ∀ a ∈ quoting, a.IsTyped := by decide
  have htarget : ((start ∅).run quoting).files.target "s.json" = .ok ["s.json"] := by
    rw [run_quoting]
    decide +kernel
  have hsize : (((start ∅).run quoting).sheet.toJson .pretty).utf8ByteSize ≤ maxSheetBytes := by
    rw [run_quoting]
    decide +kernel
  obtain ⟨next, order, hsave⟩ := exists_save_of_target htarget .pretty
  obtain ⟨t, hopen, hnames, -⟩ :=
    (reopen ∅ htyped "s.json" .pretty next order hsave next.files rfl).1 hsize
  exact ⟨htyped, next, order, hsave, t, hopen, hnames⟩

/-! ### A sheet that is too large to be opened again

A literal is saved with all its zeros, so a short text can make a large file. -/

/-- The smallest positive number, as it is typed. -/
def smallestNumeral : List Char := ['5', 'e', '-', '3', '2', '4']

/-- The smallest positive number. -/
def smallest : Literal := ⟨1, by decide⟩

/-- The sum of `n + 1` times the smallest positive number, as it is typed. -/
def sumText : Nat → List Char
  | 0 => smallestNumeral
  | n + 1 => smallestNumeral ++ '+' :: sumText n

/-- The tokens of the sum. -/
def sumTokens : Nat → List Token
  | 0 => [.number smallest]
  | n + 1 => .number smallest :: .op .add :: sumTokens n

/-- Numbers with plus signs between them are a formula. -/
theorem isFormula_sumTokens (n : Nat) : IsFormula (sumTokens n) := by
  induction n with
  | zero => rfl
  | succ n ih => exact ih

/-- The sum as a formula. -/
def sumFormula (n : Nat) : Formula := ⟨sumTokens n, isFormula_sumTokens n⟩

/-- What is typed is read as the smallest positive number. -/
theorem token_smallestNumeral : (Lexeme.number smallestNumeral).token = .ok (.number smallest) := by
  have hread : Double.read smallestNumeral = some smallest.toDouble := by decide +kernel
  simp only [Lexeme.token, hread, Literal.toDouble]

/-- The lexemes of the sum have its tokens, one by one. -/
theorem map_token_sumText (n : Nat) :
    (lexemes (sumText n)).map Lexeme.token = (sumTokens n).map .ok := by
  induction n with
  | zero =>
    have hnumeral : lexemes (sumText 0) = .number smallestNumeral :: lexemes [] :=
      lexemes_cons_of_first rfl rfl
    have hnil : lexemes [] = [] := by
      rw [lexemes]
      rfl
    rw [hnumeral, hnil, List.map_singleton, token_smallestNumeral]
    rfl
  | succ n ih =>
    -- Each summand is one numeral and one plus, then the shorter sum.
    have hnumeral : lexemes (sumText (n + 1))
        = .number smallestNumeral :: lexemes ('+' :: sumText n) := lexemes_cons_of_first rfl rfl
    have hplus : lexemes ('+' :: sumText n) = .op .add :: lexemes (sumText n) :=
      lexemes_cons_of_first rfl rfl
    rw [hnumeral, hplus, List.map_cons, List.map_cons, ih, token_smallestNumeral]
    rfl

/-- Each number of the sum is written with 326 characters, most of them zeros, and one more stands
    between two of them. -/
theorem length_chars_sumFormula (n : Nat) : (sumFormula n).chars.length = 326 + 327 * n := by
  have hliteral : (Token.chars (.number smallest)).length = 326 := by decide +kernel
  induction n with
  | zero =>
    show ((Token.chars (.number smallest)) ++ []).length = _
    rw [List.append_nil, hliteral]
  | succ n ih =>
    show ((Token.chars (.number smallest)) ++ ('+' :: (sumFormula n).chars)).length = _
    rw [List.length_append, List.length_cons, hliteral, ih]
    omega

/-- The sum refers to no cell. -/
theorem not_mem_references_sumFormula (n : Nat) (u : CellName) : u ∉ (sumFormula n).references := by
  rw [Formula.mem_references, Formula.mem_mentions]
  show Token.cell u ∉ sumTokens n
  induction n with
  | zero => simp [sumTokens]
  | succ n ih => simp [sumTokens, ih]

/-- After an equals sign the sum is typed as a formula. -/
theorem ofInput_sumText (n : Nat) :
    Contents.ofInput (String.ofList ('=' :: sumText n)) = .ok (some (.formula (sumFormula n))) := by
  have hread : Formula.read (String.ofList (sumText n)) = .ok (sumFormula n) := by
    rw [Formula.read_eq_ok_iff, String.toList_ofList]
    exact map_token_sumText n
  rw [Contents.ofInput_of_equals String.toList_ofList, hread]
  rfl

/-- The cell that holds the sum. -/
def sumCell : CellName := ⟨"C1", by decide⟩

/-- The session types the sum into its cell. -/
def largeSum (n : Nat) : List Action := [.enter "C1" (String.ofList ('=' :: sumText n))]

/-- After it, the cell holds the sum. -/
theorem contents?_run_largeSum (n : Nat) :
    ((start ∅).run (largeSum n)).sheet.cells.contents? sumCell
      = some (.formula (sumFormula n)) := by
  obtain ⟨next, order, hset⟩ : ∃ next order,
      Sheet.empty.set sumCell (some (.formula (sumFormula n))) = .ok (next, order) :=
    Sheet.exists_set_of_no_references Sheet.coherent_empty.acyclic (not_mem_references_sumFormula n)
  have henter : Sheet.empty.enter "C1" (String.ofList ('=' :: sumText n)) = .ok (next, order) :=
    Sheet.enter_eq_ok_iff.2 ⟨sumCell, _, CellName.ofText?_text sumCell, ofInput_sumText n, hset⟩
  have hrun : (start ∅).run (largeSum n) = ⟨next, ∅⟩ :=
    perform_of_ok (edited_eq_ok_iff.2 ⟨henter, rfl⟩)
  rw [hrun]
  show next.cells.contents? sumCell = _
  rw [Sheet.contents?_set hset, if_pos rfl]

/-- The text of the sheet is at least as long as the sum. -/
theorem le_size_largeSum (n : Nat) (layout : Layout) :
    327 * (n + 1) ≤ (((start ∅).run (largeSum n)).sheet.toJson layout).utf8ByteSize := by
  have hmem := Sheet.mem_members_toFile.2 ⟨sumCell, _, contents?_run_largeSum n, rfl, rfl⟩
  have hlength := SheetFile.length_le_utf8ByteSize_write hmem layout
  have htext : (Contents.formula (sumFormula n)).toInput.toList
      = "=".toList ++ (sumFormula n).chars := by
    rw [Contents.toInput, String.toList_append, Formula.text]
    exact congrArg _ String.toList_ofList
  have hequals : "=".toList.length = 1 := rfl
  rw [htext, List.length_append, hequals, length_chars_sumFormula] at hlength
  rw [Sheet.toJson]
  omega

/-- **Not every saved sheet is opened again.**  A sum of some fifty thousand numbers is saved, but
    the file is too large to be opened. -/
theorem largeSum_not_reopened : (∀ a ∈ largeSum 51306, a.IsTyped) ∧ ∃ next order,
    ((start ∅).run (largeSum 51306)).attempt (.save "s.json" .compact) = .ok (next, order) ∧
      ∀ t, next.files.openSheet "s.json" ≠ .ok t := by
  have htarget : ((start ∅).run (largeSum 51306)).files.target "s.json" = .ok ["s.json"] := by
    rw [largeSum, run, List.foldl_cons, List.foldl_nil, files_perform_enter]
    decide +kernel
  obtain ⟨next, order, hsave⟩ := exists_save_of_target htarget .compact
  have hlimit : maxSheetBytes < 327 * (51306 + 1) := by decide
  have hsize := Nat.lt_of_lt_of_le hlimit (le_size_largeSum 51306 .compact)
  refine ⟨by simp [largeSum, Action.IsTyped], next, order, hsave, fun t hopen => ?_⟩
  rw [Files.openSheet_of_find (find_of_save hsave), if_pos hsize] at hopen
  cases hopen

end Session

end LiveSheet
