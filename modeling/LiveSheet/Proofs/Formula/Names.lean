import LiveSheet.Proofs.Cell.Retyping
import LiveSheet.Proofs.Formula.Longest

namespace LiveSheet

/-!
# Names and numbers, in formulas and in cells

The name of a cell and a typed number are read as whole texts.  The names and numerals of a formula
are cut off the text that is left.  Both ways the same names and the same numbers are found.

* `FindsLongest.eq_whole` — a text that is of the kind as a whole is scanned to its end.
* `Lexeme.read_of_number` — every numeral of a formula is a number.
* `lexemes_of_isNameText` — a name of a cell is a formula's name.
* `exists_ofText?_iff_lexemes` — the texts that name a cell are those of one name.
* `Formula.cause_of_read_error` — where the fault of a text comes from.
* `Formula.names_agree` — what this says about the names and the numerals of a text.
-/

/-- A text that is of the kind as a whole is scanned to its end. -/
theorem FindsLongest.eq_whole {P : List Char → Prop} {cs : List Char}
    {scan : Option (List Char × List Char)} (h : FindsLongest P cs scan) (hP : P cs) :
    scan = some (cs, []) := by
  obtain ⟨rest, hscan⟩ := h.eq_some ⟨List.prefix_rfl, hP, fun _ hother _ => hother.length_le⟩
  rw [hscan, List.append_right_eq_self.1 (h.sound cs rest hscan).1]

/-! ### Numbers -/

namespace Lexeme

variable {chars cs : List Char}

/-- A lexeme that is a numeral is spelt as one. -/
theorem isNumeralText_of_mem_lexemes (h : .number chars ∈ lexemes cs) : IsNumeralText chars := by
  obtain ⟨left, hfirst⟩ := exists_isFirst_of_mem_lexemes h
  exact hfirst.2.kind

/-- **Every numeral of a formula is a number**, if not always a finite one. -/
theorem read_of_number (h : .number chars ∈ lexemes cs) :
    ∃ n : Numeral, Double.read chars = some (Double.ofNumeral false n) := by
  have hwhole := (Numeral.findsLongest_scan chars).eq_whole (isNumeralText_of_mem_lexemes h)
  obtain ⟨⟨n, rest⟩, hscan, heq⟩ := Option.map_eq_some_iff.1 hwhole
  obtain ⟨-, rfl⟩ := Prod.mk.inj heq
  obtain ⟨c, left, -, hfirst⟩ := exists_first_of_mem_lexemes h
  refine ⟨n, ?_⟩
  simp only [Double.read, splitSign_of_first hfirst, hscan]

/-- A numeral stands for the number that it is when it is typed. -/
theorem token_number_iff (h : .number chars ∈ lexemes cs) (value : Literal) :
    (Lexeme.number chars).token = .ok (.number value) ↔
      Contents.number? (String.ofList chars) = some value.toDouble := by
  have htrim : trim chars = chars :=
    trim_of_forall_not_blank (isNumeralText_of_mem_lexemes h).not_blank
  have hdenotes : (Lexeme.number chars).Denotes (.number value) ↔
      Double.read chars = some value.toDouble :=
    ⟨fun hd => by cases hd; assumption, .number⟩
  rw [token_eq_ok_iff h, hdenotes, Contents.number?, String.toList_ofList, htrim]
  obtain ⟨n, hread⟩ := read_of_number h
  rw [hread]
  show _ ↔ (if (Double.ofNumeral false n).isFinite then _ else _) = _
  split
  · exact Iff.rfl
  · next hinfinite =>
    -- what is beyond the largest double is no literal either
    refine iff_of_false (fun heq => hinfinite ?_) (Option.some_ne_none _).symm
    rw [Option.some.inj heq]
    rfl

end Lexeme

/-! ### Names -/

/-- A name starts with a letter. -/
theorem IsNameText.head_isAlphanum {c : Char} {cs : List Char} (h : IsNameText (c :: cs)) :
    c.isAlphanum = true := by
  obtain ⟨letters, digits, heq, hletters, -, hl, -⟩ := isCellText_ofList.1 h
  obtain ⟨d, ds, rfl⟩ := List.exists_cons_of_ne_nil hletters
  obtain ⟨rfl, -⟩ := List.cons.inj heq
  exact isAlphanum_of_isAlpha (hl c List.mem_cons_self)

/-- **A name of a cell is a formula's name**, and the only lexeme of its text. -/
theorem lexemes_of_isNameText {cs : List Char} (h : IsNameText cs) : lexemes cs = [.name cs] := by
  obtain ⟨c, rest, rfl⟩ := List.exists_cons_of_ne_nil h.ne_nil
  have hname := (findsLongest_scanName (c :: rest)).eq_whole h
  have hblank := isBlank_of_isAlphanum h.head_isAlphanum
  rw [lexemes_cons_of_first hblank (Lexeme.first_eq_name h.head_isAlphanum hname),
    lexemes_of_trimLeft_eq_nil rfl]

/-- A lexeme that is a name is spelt as one. -/
theorem isNameText_of_mem_lexemes {chars cs : List Char} (h : .name chars ∈ lexemes cs) :
    IsNameText chars := by
  obtain ⟨left, hfirst⟩ := exists_isFirst_of_mem_lexemes h
  exact hfirst.kind

/-- A text that names a cell is spelt as a name. -/
theorem isNameText_of_ofText? {s : String} {n : CellName} (h : CellName.ofText? s = some n) :
    IsNameText s.toList := by
  rw [IsNameText, String.ofList_toList]
  exact (CellName.exists_ofText?_iff s).1 ⟨n, h⟩

/-- **A text names a cell when all of it is one name** to the formulas. -/
theorem exists_ofText?_iff_lexemes (s : String) : (∃ n, CellName.ofText? s = some n) ↔
    lexemes s.toList = [.name s.toList] ∧ ∀ c ∈ s.toList, isBlank c = false := by
  constructor
  · rintro ⟨n, hn⟩
    have hname := isNameText_of_ofText? hn
    exact ⟨lexemes_of_isNameText hname, fun c hc =>
      isBlank_of_not_isSeparator (hname.not_separator c hc)⟩
  · rintro ⟨hlexemes, -⟩
    have hname : IsNameText s.toList :=
      isNameText_of_mem_lexemes (hlexemes ▸ List.mem_cons_self)
    rw [IsNameText, String.ofList_toList] at hname
    exact (CellName.exists_ofText?_iff s).2 hname

/-- The name of a cell is a formula that refers to this cell and to no other. -/
theorem Formula.exists_read_of_ofText? {s : String} {n : CellName}
    (h : CellName.ofText? s = some n) :
    ∃ f, read s = .ok f ∧ f.tokens = [.cell n] ∧ ∀ m, m ∈ f.references ↔ m = n := by
  have hread : read s = .ok ⟨[.cell n], rfl⟩ := by
    rw [read_eq_ok_iff, lexemes_of_isNameText (isNameText_of_ofText? h)]
    simp only [List.map_cons, List.map_nil, Lexeme.token, String.ofList_toList, h]
  refine ⟨_, hread, rfl, fun m => ?_⟩
  rw [mem_references, mem_mentions, List.mem_singleton, Token.cell.injEq]

/-! ### Faults -/

namespace Lexeme

/-- **The lexemes that have no token** are invalid runs and numerals beyond the largest double. -/
theorem cause_of_token_error {l : Lexeme} {cs : List Char} {fault : FormulaFault}
    (h : l ∈ lexemes cs) (ht : l.token = .error fault) :
    (∃ chars, l = .invalid chars ∧ fault = .invalidToken l.text) ∨ fault = .outOfRange l.text := by
  cases l with
  | leftParen => cases ht
  | rightParen => cases ht
  | op o => cases ht
  | name chars =>
    -- Every name among the lexemes names a cell, so this does not fail.
    obtain ⟨n, hn⟩ := (CellName.exists_ofText?_iff _).2 (isNameText_of_mem_lexemes h)
    simp only [token, hn] at ht
    cases ht
  | number chars =>
    -- A numeral is always read, and fails only beyond the largest double.
    obtain ⟨n, hread⟩ := read_of_number h
    simp only [token, hread] at ht
    split at ht
    · cases ‹some _ = none›
    · cases ht
    · cases ht
      exact Or.inr rfl
  | invalid chars =>
    cases ht
    exact Or.inl ⟨chars, rfl, rfl⟩

end Lexeme

namespace FormulaFault

/-- The wording of a fault starts by calling something invalid. -/
def CallsInvalid (fault : FormulaFault) : Prop := "Invalid".toList <+: fault.reason.toList

/-- Only tokens and numbers are called invalid. -/
theorem callsInvalid_iff {fault : FormulaFault} : fault.CallsInvalid ↔
    (∃ shown, fault = .invalidToken shown) ∨ ∃ shown, fault = .invalidNumber shown := by
  unfold CallsInvalid reason
  cases fault <;> simp

/-- An invalid token is not worded as a number. -/
theorem not_invalid_number (shown : String) :
    ¬ "Invalid number".toList <+: (invalidToken shown).reason.toList := by
  unfold reason
  simp

end FormulaFault

namespace Formula

open FormulaFault

/-- The fault of a token that may not stand at its place calls nothing invalid. -/
theorem not_callsInvalid_faultAt (place : Cursor) (previous : Option Lexeme) (l : Lexeme) :
    ¬ (faultAt place previous l).CallsInvalid := by
  unfold faultAt
  split
  · split
    · simp [callsInvalid_iff]
    · split <;> simp [callsInvalid_iff]
  · split <;> simp [callsInvalid_iff]

/-- The fault of a formula that ends too early calls nothing invalid. -/
theorem not_callsInvalid_of_faultAtEnd {place : Cursor} {previous : Option Lexeme}
    {fault : FormulaFault} (h : faultAtEnd place previous = some fault) : ¬ fault.CallsInvalid := by
  unfold faultAtEnd at h
  split at h
  · cases h
    simp [callsInvalid_iff]
  split at h
  · cases h
    simp [callsInvalid_iff]
  · cases h

/-- Only a lexeme is called invalid, and not the place where it stands. -/
theorem cause_of_readFrom_error {place : Cursor} {previous : Option Lexeme} {ls : List Lexeme}
    {fault : FormulaFault} (h : readFrom place previous ls = .error fault) :
    (∃ l ∈ ls, l.token = .error fault) ∨ ¬ fault.CallsInvalid := by
  induction ls generalizing place previous with
  | nil =>
    rw [readFrom] at h
    split at h
    · next hend => cases h; exact Or.inr (not_callsInvalid_of_faultAtEnd hend)
    · cases h
  | cons l rest ih =>
    rw [readFrom] at h
    split at h
    · next htoken => cases h; exact Or.inl ⟨l, List.mem_cons_self, htoken⟩
    split at h
    · cases h; exact Or.inr (not_callsInvalid_faultAt place previous l)
    split at h
    · next hrest =>
      cases h
      refine (ih hrest).imp_left ?_
      rintro ⟨m, hm, htoken⟩
      exact ⟨m, List.mem_cons_of_mem l hm, htoken⟩
    · cases h

/-- **What is called invalid in a text** is one of its invalid runs. -/
theorem cause_of_read_error {text : String} {fault : FormulaFault}
    (h : read text = .error fault) (hinvalid : fault.CallsInvalid) :
    ∃ chars, .invalid chars ∈ lexemes text.toList ∧
      fault = .invalidToken (String.ofList chars) := by
  unfold read at h
  split at h
  · cases h
    simp [callsInvalid_iff] at hinvalid
  next l rest hlexemes =>
  split at h
  · next hread =>
    cases h
    -- A place where nothing fits is not called invalid, so a lexeme without token is left.
    obtain ⟨m, hm, htoken⟩ := (cause_of_readFrom_error hread).resolve_right (not_not_intro hinvalid)
    rw [← hlexemes] at hm
    rcases Lexeme.cause_of_token_error hm htoken with ⟨chars, rfl, hfault⟩ | rfl
    · exact ⟨chars, hm, hfault⟩
    · simp [callsInvalid_iff] at hinvalid
  · cases h

/-- **Names and numerals of formulas are names and numbers of cells.**  Whatever the text:
    * Each name among its lexemes names a cell.  Each numeral is a number where cells are typed, and
      stands for a literal exactly when it is a finite number there, and then for that number.
    * If it is refused, then not for a numeral that is no number, and for an invalid token only if
      this is one of its invalid runs.
    * It names a cell exactly when its only lexeme is a name, without blank characters around it.
      Then it is a formula that refers to this cell and no other.
    * The cells that it refers to, if it is a formula, are cells that can be named. -/
theorem names_agree (text : String) :
    let ls := lexemes text.toList
    (∀ chars, .name chars ∈ ls → ∃ n, CellName.ofText? (String.ofList chars) = some n) ∧
    (∀ chars, .number chars ∈ ls → (∃ v, Double.read (trim chars) = some v) ∧
      ∀ value : Literal, (Lexeme.number chars).token = .ok (.number value) ↔
        Contents.number? (String.ofList chars) = some value.toDouble) ∧
    (∀ fault, read text = .error fault → ¬ "Invalid number".toList <+: fault.reason.toList ∧
      ("Invalid token".toList <+: fault.reason.toList →
        ∃ chars, .invalid chars ∈ ls ∧ fault = .invalidToken (String.ofList chars))) ∧
    ((∃ n, CellName.ofText? text = some n) ↔
      ls = [.name text.toList] ∧ ∀ c ∈ text.toList, isBlank c = false) ∧
    (∀ n, CellName.ofText? text = some n →
      ∃ f, read text = .ok f ∧ f.tokens = [.cell n] ∧ ∀ m, m ∈ f.references ↔ m = n) ∧
    ∀ f, read text = .ok f → ∀ n ∈ f.references, CellName.ofText? n.text = some n := by
  intro ls
  refine ⟨fun chars h => ?_, fun chars h => ⟨?_, ?_⟩, fun fault hfault => ⟨fun hnumber => ?_,
    fun htoken => ?_⟩, exists_ofText?_iff_lexemes text, fun n hn => exists_read_of_ofText? hn,
    fun f _ n _ => n.ofText?_text⟩
  · exact (CellName.exists_ofText?_iff _).2 (isNameText_of_mem_lexemes h)
  · rw [trim_of_forall_not_blank (Lexeme.isNumeralText_of_mem_lexemes h).not_blank]
    obtain ⟨n, hread⟩ := Lexeme.read_of_number h
    exact ⟨_, hread⟩
  · exact Lexeme.token_number_iff h
  · -- What is called invalid is a run, and its reason says token and not number.
    have hinvalid : fault.CallsInvalid := List.IsPrefix.trans ⟨" number".toList, rfl⟩ hnumber
    obtain ⟨chars, -, rfl⟩ := cause_of_read_error hfault hinvalid
    exact not_invalid_number _ hnumber
  · exact cause_of_read_error hfault (List.IsPrefix.trans ⟨" token".toList, rfl⟩ htoken)

end Formula

end LiveSheet
