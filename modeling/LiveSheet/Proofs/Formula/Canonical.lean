import LiveSheet.Proofs.Decimal.Spelling
import LiveSheet.Proofs.Formula.Acceptance

namespace LiveSheet

/-!
# The canonical text of a formula

Nothing stands between the tokens of a canonical text.  Its lexemes are found again because an
operand is followed by an operator, a closing parenthesis or nothing, and none of these can belong
to a name or a numeral.

* `Token.lexeme` — the lexeme a token is written as.
* `Token.first_lexeme` — it is the first lexeme of a text that starts with the token.
* `Formula.lexemes_text` — the lexemes of a canonical text.
* `Formula.read_text` — a canonical text is read as the formula.
* `Formula.read_canonical` — canonical texts are faithful and stable.
-/

/-! ### Characters -/

/-- Capitals are letters. -/
theorem isAlpha_of_isUpper {c : Char} (h : c.isUpper = true) : c.isAlpha = true := by
  show (c.isUpper || c.isLower) = true
  rw [h, Bool.true_or]

/-- Letters are alphanumeric. -/
theorem isAlphanum_of_isAlpha {c : Char} (h : c.isAlpha = true) : c.isAlphanum = true := by
  show (c.isAlpha || c.isDigit) = true
  rw [h, Bool.true_or]

/-- Digits are alphanumeric. -/
theorem isAlphanum_of_isDigit {c : Char} (h : c.isDigit = true) : c.isAlphanum = true := by
  show (c.isAlpha || c.isDigit) = true
  rw [h, Bool.or_true]

/-- The alphanumeric characters, by their code points. -/
theorem isAlphanum_bounds {c : Char} (h : c.isAlphanum = true) :
    (65 ≤ c.toNat ∧ c.toNat ≤ 90 ∨ 97 ≤ c.toNat ∧ c.toNat ≤ 122) ∨
      48 ≤ c.toNat ∧ c.toNat ≤ 57 := by
  delta Char.isAlphanum Char.isAlpha Char.isUpper Char.isLower Char.isDigit at h
  simp only [Bool.or_eq_true, Bool.and_eq_true, decide_eq_true_eq, UInt32.le_iff_toNat_le,
    ge_iff_le] at h
  exact h

/-- No alphanumeric character is blank. -/
theorem isBlank_of_isAlphanum {c : Char} (h : c.isAlphanum = true) : isBlank c = false := by
  have hbounds := isAlphanum_bounds h
  simp only [isBlank, Bool.or_eq_false_iff, Bool.and_eq_false_iff, decide_eq_false_iff_not,
    beq_eq_false_iff_ne]
  omega

/-- No alphanumeric character is an operator. -/
theorem ofSymbol?_of_isAlphanum {c : Char} (h : c.isAlphanum = true) :
    Operator.ofSymbol? c = none := by
  cases ho : Operator.ofSymbol? c with
  | none => rfl
  | some o =>
    rw [Operator.eq_symbol_of_ofSymbol? ho] at h
    cases o <;> cases h

/-! ### Names -/

namespace CellName

/-- The letters and the digits of a name. -/
theorem exists_letters_digits (n : CellName) : ∃ letters digits : List Char,
    n.text.toList = letters ++ digits ∧ letters ≠ [] ∧ digits ≠ [] ∧
      (∀ c ∈ letters, c.isUpper = true) ∧ ∀ c ∈ digits, c.isDigit = true := by
  have h := n.wellFormed
  simp only [isUpperName, Bool.and_eq_true, Bool.not_eq_true', List.isEmpty_eq_false_iff,
    List.all_eq_true] at h
  obtain ⟨⟨hletters, hdigits⟩, hall⟩ := h
  exact ⟨_, _, List.takeWhile_append_dropWhile.symm, hletters, hdigits,
    List.all_eq_true.1 List.all_takeWhile, hall⟩

/-- Names are in upper case. -/
theorem normalized_text (n : CellName) : normalized n.text = n.text := by
  obtain ⟨letters, digits, htext, -, -, hletters, hdigits⟩ := n.exists_letters_digits
  apply String.toList_inj.1
  rw [normalized, String.toList_map, htext, List.map_append]
  rw [List.map_congr_left fun c hc => toUpper_of_isUpper (hletters c hc),
    List.map_congr_left fun c hc =>
      toUpper_of_isAlpha_eq_false (isAlpha_eq_false_of_isDigit (hdigits c hc)),
    List.map_id', List.map_id']

/-- A name is read back from its text. -/
theorem ofText?_text (n : CellName) : ofText? n.text = some n := by
  have hwell : isUpperName (normalized n.text).toList = true := by
    rw [n.normalized_text]
    exact n.wellFormed
  rw [ofText?, dif_pos hwell, Option.some.injEq]
  exact ext_text n.normalized_text

end CellName

/-- Letters end where digits follow them. -/
theorem not_isAlpha_head_of_digits {digits : List Char} (hne : digits ≠ [])
    (hdigits : ∀ c ∈ digits, c.isDigit = true) (rest : List Char) :
    ∀ c ∈ (digits ++ rest).head?, c.isAlpha = false := by
  obtain ⟨d, ds, rfl⟩ := List.exists_cons_of_ne_nil hne
  rintro c ⟨⟩
  exact isAlpha_eq_false_of_isDigit (hdigits d List.mem_cons_self)

/-- A name is cut off where what follows is no digit. -/
theorem scanName_text (n : CellName) {rest : List Char} (h : Numeral.Stops rest) :
    scanName (n.text.toList ++ rest) = some (n.text.toList, rest) := by
  obtain ⟨letters, digits, htext, hletters, hdigits, hl, hd⟩ := n.exists_letters_digits
  -- the letters end at the first digit, the digits at what follows the name
  have hfirst := not_isAlpha_head_of_digits hdigits hd rest
  have halpha : ∀ c ∈ letters, c.isAlpha = true := fun c hc => isAlpha_of_isUpper (hl c hc)
  have hrest : ∀ c ∈ rest.head?, c.isDigit = false := fun c hc => (h c hc).1
  simp only [scanName, htext, List.append_assoc, takeWhile_run_append halpha hfirst,
    dropWhile_run_append halpha hfirst, leadingDigits, afterDigits,
    takeWhile_run_append hd hrest, dropWhile_run_append hd hrest, hletters, hdigits, or_self,
    if_false]

/-! ### Numbers -/

/-- The text of a literal is the spelling of a plain numeral. -/
theorem Literal.exists_spelling (l : Literal) :
    ∃ n : Numeral, n.IsPlain ∧ n.spelling = l.toDouble.chars := by
  by_cases hzero : l.val = 0
  · refine ⟨⟨['0'], none, none⟩, ⟨List.cons_ne_nil _ _, ?_, ?_, rfl⟩, ?_⟩
    · simp
    · rintro ds ⟨⟩
    · rw [toDouble, Double.chars, if_pos hzero]
      rfl
  · have hrange := (Double.shortest_spec (Nat.pos_of_ne_zero hzero) l.isLt).2
    refine ⟨_, Decimal.isPlain_numeral hrange.pos, ?_⟩
    rw [Decimal.spelling_numeral, toDouble, Double.chars, if_neg hzero,
      if_neg Bool.false_ne_true, List.nil_append]

/-! ### Tokens and their lexemes -/

namespace Lexeme

variable {c : Char} {cs rest : List Char} (h : c.isAlphanum = true)

include h

/-- No parenthesis is a letter or a digit, and no operator is. -/
theorem ne_symbol_of_isAlphanum : c ≠ '(' ∧ c ≠ ')' ∧ Operator.ofSymbol? c = none := by
  refine ⟨?_, ?_, ofSymbol?_of_isAlphanum h⟩
  · rintro rfl
    cases h
  · rintro rfl
    cases h

/-- Where a name starts the text, it is the first lexeme. -/
theorem first_eq_name {found : List Char} (hname : scanName (c :: cs) = some (found, rest)) :
    first c cs = (.name found, rest) := by
  obtain ⟨hopen, hclose, hop⟩ := ne_symbol_of_isAlphanum h
  simp only [first, hopen, hclose, if_false, hop, hname]

/-- Where no name but a numeral starts the text, the numeral is the first lexeme. -/
theorem first_eq_number {n : Numeral} (hname : scanName (c :: cs) = none)
    (hscan : Numeral.scan (c :: cs) = some (n, rest)) :
    first c cs = (.number n.spelling, rest) := by
  obtain ⟨hopen, hclose, hop⟩ := ne_symbol_of_isAlphanum h
  simp only [first, hopen, hclose, if_false, hop, hname, hscan]

end Lexeme

namespace Token

/-- The lexeme a token is written as. -/
def lexeme : Token → Lexeme
  | .leftParen => .leftParen
  | .rightParen => .rightParen
  | .op o => .op o
  | .number value => .number value.toDouble.chars
  | .cell name => .name name.text.toList

/-- **The lexeme that a token is written as has this token.** -/
theorem token_lexeme (t : Token) : t.lexeme.token = .ok t := by
  cases t with
  | leftParen => rfl
  | rightParen => rfl
  | op o => rfl
  | number value =>
    simp only [lexeme, Lexeme.token, Literal.toDouble, Double.read_chars, Bool.false_and]
  | cell name =>
    simp only [lexeme, Lexeme.token, String.ofList_toList, CellName.ofText?_text]

/-- Whether a token ends where this text follows: after an operand, nothing that could belong to it
    may stand. -/
def EndsBefore (rest : List Char) : Token → Prop
  | .number _ => Numeral.Stops rest
  | .cell _ => Numeral.Stops rest
  | _ => True

/-- **A token that ends is the first lexeme of a text that starts with it.** -/
theorem first_lexeme {t : Token} {rest : List Char} (h : t.EndsBefore rest) :
    ∃ c cs, t.chars ++ rest = c :: cs ∧ isBlank c = false ∧
      Lexeme.first c cs = (t.lexeme, rest) := by
  cases t with
  | leftParen => exact ⟨'(', rest, rfl, rfl, rfl⟩
  | rightParen => exact ⟨')', rest, rfl, rfl, rfl⟩
  | op o => cases o <;> exact ⟨_, rest, rfl, rfl, rfl⟩
  | number value =>
    obtain ⟨n, hn, hspelling⟩ := value.exists_spelling
    have hscan := Numeral.scan_spelling hn h
    obtain ⟨d, ds, hwhole⟩ := List.exists_cons_of_ne_nil hn.whole_ne_nil
    have hd : d.isDigit = true := hn.whole_digits d (hwhole ▸ List.mem_cons_self)
    have halnum : d.isAlphanum = true := isAlphanum_of_isDigit hd
    obtain ⟨cs, hcs⟩ : ∃ cs, n.spelling ++ rest = d :: cs := by
      simp only [Numeral.spelling, hwhole, List.cons_append]
      exact ⟨_, rfl⟩
    -- a name starts with a letter, so the numeral is not taken for one
    have hname : scanName (d :: cs) = none := by
      rw [scanName, if_pos]
      exact Or.inl (List.takeWhile_cons_of_neg (by simp [isAlpha_eq_false_of_isDigit hd]))
    rw [hcs] at hscan
    refine ⟨d, cs, ?_, isBlank_of_isAlphanum halnum, ?_⟩
    · rw [chars, ← hspelling, hcs]
    · rw [Lexeme.first_eq_number halnum hname hscan, hspelling]
      rfl
  | cell name =>
    have hscan := scanName_text name h
    obtain ⟨letters, digits, htext, hletters, -, hl, -⟩ := name.exists_letters_digits
    obtain ⟨c, ls, rfl⟩ := List.exists_cons_of_ne_nil hletters
    have halnum : c.isAlphanum = true :=
      isAlphanum_of_isAlpha (isAlpha_of_isUpper (hl c List.mem_cons_self))
    obtain ⟨cs, hcs⟩ : ∃ cs, name.text.toList ++ rest = c :: cs := by
      rw [htext]
      exact ⟨_, rfl⟩
    rw [hcs] at hscan
    refine ⟨c, cs, hcs, isBlank_of_isAlphanum halnum, ?_⟩
    rw [Lexeme.first_eq_name halnum hscan]
    rfl

end Token

/-! ### The lexemes of a canonical text -/

/-- A text that starts with no blank character is not trimmed on its left. -/
theorem trimLeft_cons {c : Char} {cs : List Char} (h : isBlank c = false) :
    trimLeft (c :: cs) = c :: cs := List.dropWhile_cons_of_neg (by simp [h])

/-- Blank characters have no lexemes. -/
theorem lexemes_of_trimLeft_eq_nil {cs : List Char} (h : trimLeft cs = []) : lexemes cs = [] := by
  rw [lexemes]
  split
  · rfl
  · next c rest hcons =>
    rw [h] at hcons
    cases hcons

/-- Blank characters before the first lexeme are skipped. -/
theorem lexemes_of_trimLeft_eq_cons {c : Char} {cs rest : List Char} (h : trimLeft cs = c :: rest) :
    lexemes cs = (Lexeme.first c rest).1 :: lexemes (Lexeme.first c rest).2 := by
  rw [lexemes]
  split
  · next hnil =>
    rw [h] at hnil
    cases hnil
  · next d ds hcons =>
    rw [h] at hcons
    cases hcons
    rfl

/-- A text has its first lexeme, and then those of what follows it. -/
theorem lexemes_cons_of_first {c : Char} {cs rest : List Char} {l : Lexeme}
    (hblank : isBlank c = false) (h : Lexeme.first c cs = (l, rest)) :
    lexemes (c :: cs) = l :: lexemes rest := by
  rw [lexemes_of_trimLeft_eq_cons (trimLeft_cons hblank), h]

/-- A token that ends before some text is cut off it as its own lexeme. -/
theorem lexemes_chars_append {t : Token} {rest : List Char} (h : t.EndsBefore rest) :
    lexemes (t.chars ++ rest) = t.lexeme :: lexemes rest := by
  obtain ⟨c, cs, hcs, hblank, hfirst⟩ := Token.first_lexeme h
  rw [hcs, lexemes_cons_of_first hblank hfirst]

/-- After an operand comes an operator, a closing parenthesis or nothing. -/
theorem stops_of_advance {depth : Nat} {ts : List Token} {place : Cursor}
    (h : Cursor.advance ⟨false, depth⟩ ts = some place) :
    Numeral.Stops (ts.flatMap Token.chars) := by
  cases ts with
  | nil => exact Numeral.stops_nil
  | cons t ts =>
    obtain ⟨next, hstep, -⟩ := Option.bind_eq_some_iff.1 h
    rw [List.flatMap_cons]
    cases t with
    | leftParen => cases hstep
    | number value => cases hstep
    | cell name => cases hstep
    | rightParen =>
      rintro c ⟨⟩
      decide
    | op o =>
      cases o <;> rintro c ⟨⟩ <;> decide

/-- Tokens that can stand where they do are cut apart again. -/
theorem lexemes_of_advance {ts : List Token} {start place : Cursor}
    (h : start.advance ts = some place) :
    lexemes (ts.flatMap Token.chars) = ts.map Token.lexeme := by
  induction ts generalizing start with
  | nil => exact lexemes_of_trimLeft_eq_nil rfl
  | cons t ts ih =>
    obtain ⟨next, hstep, hadvance⟩ := Option.bind_eq_some_iff.1 h
    -- an operand leads to a place where no operand can follow
    have hends : t.EndsBefore (ts.flatMap Token.chars) := by
      cases t with
      | leftParen => trivial
      | rightParen => trivial
      | op o => trivial
      | number value =>
        simp only [Cursor.step] at hstep
        split at hstep
        · cases hstep
          exact stops_of_advance hadvance
        · cases hstep
      | cell name =>
        simp only [Cursor.step] at hstep
        split at hstep
        · cases hstep
          exact stops_of_advance hadvance
        · cases hstep
    rw [List.flatMap_cons, lexemes_chars_append hends, ih hadvance, List.map_cons]

namespace Formula

/-- The lexemes of a canonical text are those of the tokens. -/
theorem lexemes_text (f : Formula) : lexemes f.text.toList = f.tokens.map Token.lexeme := by
  rw [text, String.toList_ofList]
  exact lexemes_of_advance f.isFormula

/-- A canonical text is read as its formula. -/
theorem read_text (f : Formula) : read f.text = .ok f := by
  rw [read_eq_ok_iff, lexemes_text, List.map_map]
  exact List.map_congr_left fun t _ => t.token_lexeme

/-- **Canonical texts are faithful and stable.**  The canonical text of any formula is read, and
    what is read has the same tokens, the same canonical text, the same references, and the same
    evaluation whatever the operations and the values of the cells are. -/
theorem read_canonical (f : Formula) :
    ∃ g, read f.text = .ok g ∧ g.tokens = f.tokens ∧ g.text = f.text ∧
      g.references = f.references ∧
      ∀ arithmetic lookup, g.evaluate arithmetic lookup = f.evaluate arithmetic lookup :=
  ⟨f, f.read_text, rfl, rfl, rfl, fun _ _ => rfl⟩

end Formula

end LiveSheet
