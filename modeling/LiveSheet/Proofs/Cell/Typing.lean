import LiveSheet.Cell.Contents

namespace LiveSheet

/-!
# Which names and texts can be typed

* `IsCellText` — ASCII letters followed by ASCII digits, some of each.
* `CellName.exists_ofText?_iff` — these are the texts that name a cell.
* `IsBrokenFormula` — an equals sign, and after it no formula.
* `Contents.exists_ofInput_error_iff` — these are the texts that cannot be typed.
-/

/-! ### Letters and digits in upper case -/

/-- The capitals are what letters become in upper case, and nothing else becomes one. -/
theorem isUpper_toUpper (c : Char) : c.toUpper.isUpper = c.isAlpha := by
  delta Char.isAlpha Char.isUpper Char.isLower Char.toUpper
  split <;> grind [UInt32.toNat_add, Char.toNat_val]

/-- In upper case a character is a letter when it was one before. -/
theorem isAlpha_toUpper (c : Char) : c.toUpper.isAlpha = c.isAlpha := by
  delta Char.isAlpha Char.isUpper Char.isLower Char.toUpper
  split <;> grind [UInt32.toNat_add, Char.toNat_val]

/-- In upper case a character is a digit when it was one before. -/
theorem isDigit_toUpper (c : Char) : c.toUpper.isDigit = c.isDigit := by
  delta Char.isDigit Char.toUpper
  split <;> grind [UInt32.toNat_add, Char.toNat_val]

/-- No digit is a letter. -/
theorem isAlpha_eq_false_of_isDigit {c : Char} (h : c.isDigit = true) : c.isAlpha = false := by
  delta Char.isDigit at h
  delta Char.isAlpha Char.isLower Char.isUpper
  grind

/-- A capital is its own upper case. -/
theorem toUpper_of_isUpper {c : Char} (h : c.isUpper = true) : c.toUpper = c := by
  delta Char.isUpper at h
  delta Char.toUpper
  grind

/-- Upper case changes letters only. -/
theorem toUpper_of_isAlpha_eq_false {c : Char} (h : c.isAlpha = false) : c.toUpper = c := by
  delta Char.isAlpha Char.isLower Char.isUpper at h
  delta Char.toUpper
  grind

/-- What is in upper case stays as it is. -/
theorem toUpper_toUpper (c : Char) : c.toUpper.toUpper = c.toUpper := by
  cases hc : c.isAlpha with
  | true => exact toUpper_of_isUpper ((isUpper_toUpper c).trans hc)
  | false => rw [toUpper_of_isAlpha_eq_false hc, toUpper_of_isAlpha_eq_false hc]

/-! ### Names -/

/-- One or more ASCII letters followed by one or more ASCII digits. -/
def IsCellText (s : String) : Prop :=
  ∃ letters digits : List Char, s.toList = letters ++ digits ∧ letters ≠ [] ∧ digits ≠ [] ∧
    (∀ c ∈ letters, c.isAlpha = true) ∧ ∀ c ∈ digits, c.isDigit = true

/-- What it is to name a cell, said of the characters of a text. -/
theorem isCellText_ofList {cs : List Char} : IsCellText (String.ofList cs) ↔
    ∃ letters digits : List Char, cs = letters ++ digits ∧ letters ≠ [] ∧ digits ≠ [] ∧
      (∀ c ∈ letters, c.isAlpha = true) ∧ ∀ c ∈ digits, c.isDigit = true := by
  rw [IsCellText, String.toList_ofList]

/-- In upper case, a text is letters and digits when it was before. -/
theorem isUpperName_map_toUpper (cs : List Char) :
    isUpperName (cs.map Char.toUpper) = true ↔
      cs.takeWhile Char.isAlpha ≠ [] ∧ cs.dropWhile Char.isAlpha ≠ [] ∧
        ∀ c ∈ cs.dropWhile Char.isAlpha, c.isDigit = true := by
  have hupper : Char.isUpper ∘ Char.toUpper = Char.isAlpha := funext isUpper_toUpper
  have hdigit : Char.isDigit ∘ Char.toUpper = Char.isDigit := funext isDigit_toUpper
  simp only [isUpperName, List.takeWhile_map, List.dropWhile_map, hupper, List.all_map, hdigit,
    List.isEmpty_map, Bool.and_eq_true, Bool.not_eq_true', List.isEmpty_eq_false_iff,
    List.all_eq_true, and_assoc]

/-- The letters of a name end where its digits begin. -/
theorem isCellText_iff (s : String) :
    IsCellText s ↔ s.toList.takeWhile Char.isAlpha ≠ [] ∧ s.toList.dropWhile Char.isAlpha ≠ [] ∧
      ∀ c ∈ s.toList.dropWhile Char.isAlpha, c.isDigit = true := by
  constructor
  · rintro ⟨letters, digits, hs, hletters, hdigits, hl, hd⟩
    -- the first digit is no letter, so the letters stop there
    have hstop : digits.takeWhile Char.isAlpha = [] ∧ digits.dropWhile Char.isAlpha = digits := by
      cases digits with
      | nil => exact absurd rfl hdigits
      | cons d ds =>
        have hfirst : ¬ d.isAlpha = true := by
          rw [isAlpha_eq_false_of_isDigit (hd d List.mem_cons_self)]
          exact Bool.false_ne_true
        exact ⟨List.takeWhile_cons_of_neg hfirst, List.dropWhile_cons_of_neg hfirst⟩
    rw [hs, List.takeWhile_append_of_pos hl, List.dropWhile_append_of_pos hl, hstop.1, hstop.2,
      List.append_nil]
    exact ⟨hletters, hdigits, hd⟩
  · rintro ⟨hletters, hdigits, hd⟩
    exact ⟨_, _, List.takeWhile_append_dropWhile.symm, hletters, hdigits,
      List.all_eq_true.1 List.all_takeWhile, hd⟩

/-- **The texts that name a cell** are letters followed by digits. -/
theorem CellName.exists_ofText?_iff (s : String) :
    (∃ name, ofText? s = some name) ↔ IsCellText s := by
  rw [isCellText_iff, ← isUpperName_map_toUpper, ← String.toList_map]
  constructor
  · rintro ⟨name, hname⟩
    rw [← normalized, ← text_of_ofText? hname]
    exact name.wellFormed
  · intro h
    exact ⟨⟨normalized s, h⟩, dif_pos h⟩

/-- A text names a cell when the text of the cell is its upper-case form. -/
theorem CellName.ofText?_eq_some_iff {s : String} {n : CellName} :
    ofText? s = some n ↔ n.text = normalized s := by
  refine ⟨text_of_ofText?, fun h => ?_⟩
  have hwell : isUpperName (normalized s).toList = true := h ▸ n.wellFormed
  rw [ofText?, dif_pos hwell, Option.some.injEq]
  exact ext_text h.symm

/-! ### Texts -/

/-- An equals sign, and what is after it is no formula. -/
def IsBrokenFormula (input : String) : Prop :=
  ∃ rest, input.toList = '=' :: rest ∧ ∀ f, Formula.read (String.ofList rest) ≠ .ok f

/-- An equals sign at the start is no blank end. -/
theorem trim_equals (rest : List Char) : ∃ others, trim ('=' :: rest) = '=' :: others := by
  have hleft : trimLeft ('=' :: rest) = '=' :: rest := List.dropWhile_cons_of_neg (by decide)
  have hright : trimLeft (rest.reverse ++ ['=']) = trimLeft rest.reverse ++ ['='] := by
    unfold trimLeft
    rw [List.dropWhile_append]
    split
    · next hempty =>
      rw [List.isEmpty_iff.1 hempty]
      exact List.dropWhile_cons_of_neg (by decide)
    · rfl
  refine ⟨(trimLeft rest.reverse).reverse, ?_⟩
  rw [trim, hleft, List.reverse_cons, hright, List.reverse_append]
  rfl

/-- No number starts with an equals sign. -/
theorem Double.read_equals (rest : List Char) : read ('=' :: rest) = none := by
  have hscan : Numeral.scan ('=' :: rest) = none := by
    have hdigits : leadingDigits ('=' :: rest) = [] := List.takeWhile_cons_of_neg (by decide)
    have hafter : afterDigits ('=' :: rest) = '=' :: rest := List.dropWhile_cons_of_neg (by decide)
    simp only [Numeral.scan, hdigits, hafter, Numeral.scanFraction]
    simp
  have hword : ofWord false ('=' :: rest) = none := by
    simp [ofWord, show Char.toLower '=' = '=' from by decide]
  have hsign : splitSign ('=' :: rest) = (false, '=' :: rest) := rfl
  simp only [read, hsign, hscan, hword]

namespace Contents

/-- A text that starts with an equals sign is no number. -/
theorem number?_equals {input : String} {rest : List Char} (h : input.toList = '=' :: rest) :
    number? input = none := by
  obtain ⟨others, hothers⟩ := trim_equals rest
  rw [number?, h, hothers, Double.read_equals]

/-- **The texts that cannot be typed** are an equals sign and after it no formula. -/
theorem exists_ofInput_error_iff (input : String) :
    (∃ fault, ofInput input = .error fault) ↔ IsBrokenFormula input := by
  unfold ofInput IsBrokenFormula
  cases hinput : input.toList with
  | nil => simp
  | cons c rest =>
    by_cases hc : c = '='
    · subst hc
      simp only [number?_equals hinput, if_true]
      cases hread : Formula.read (String.ofList rest) with
      | ok f => simp [Except.map, hread]
      | error fault => simp [Except.map, hread]
    · cases hnumber : number? input with
      | none => simp [hc]
      | some v => simp [hc]

/-- Only the empty text stands for no contents. -/
theorem ofInput_eq_none_iff (input : String) : ofInput input = .ok none ↔ input = "" := by
  constructor
  · intro h
    unfold ofInput at h
    split at h
    · next hempty => exact String.toList_eq_nil_iff.1 hempty
    · split at h
      · cases h
      · split at h
        · -- a formula that is read is some contents
          cases hread : Formula.read _ with
          | ok f => rw [hread] at h; cases h
          | error fault => rw [hread] at h; cases h
        · cases h
  · rintro rfl
    rfl

end Contents

end LiveSheet
