import LiveSheet.Proofs.Decimal.LetterCase
import LiveSheet.Proofs.Formula.Longest

namespace LiveSheet

/-!
# Spaces and letter case in a formula

A lexeme ends where a blank character follows, because none of the longer prefixes that could be
taken has a blank in it.  And no class of characters tells the two cases of a letter apart.  So the
lexemes of a text can be written with other spaces between them and with other cases of their
letters, and the text is the same formula.

* `SameLetters` — texts that differ in the case of letters only.
* `Spaced` — a text of some words with blank characters between them.
* `Lexeme.IsFirst.append_blank` — what follows a blank is not seen.
* `Lexeme.first_map_toUpper` — the first lexeme of a text in upper case.
* `lexemes_spaced` — the lexemes of a text that is written with other spaces and cases.
* `Formula.read_respelled` — such a text is read as the same formula.
-/

/-- Two texts are the same but for the case of ASCII letters. -/
def SameLetters (cs ds : List Char) : Prop := cs.map Char.toUpper = ds.map Char.toUpper

/-- Blank characters only. -/
def AreBlank (cs : List Char) : Prop := ∀ c ∈ cs, isBlank c = true

/-- A text of some words with blank characters between them, at least one between two words, and any
    number of them before and after. -/
inductive Spaced : List (List Char) → List Char → Prop where
  | nil {blanks : List Char} : AreBlank blanks → Spaced [] blanks
  | last {before word after : List Char} : AreBlank before → AreBlank after →
      Spaced [word] (before ++ (word ++ after))
  | cons {before word between next rest : List Char} {words : List (List Char)} : AreBlank before →
      AreBlank between → between ≠ [] → Spaced (next :: words) rest →
      Spaced (word :: next :: words) (before ++ (word ++ (between ++ rest)))

/-! ### What follows a blank is not seen -/

/-- Nothing, or a text that starts with a blank character. -/
def StartsBlank (cs : List Char) : Prop := ∀ c ∈ cs.head?, isBlank c = true

/-- Blank characters alone start with a blank one, if there are any. -/
theorem AreBlank.startsBlank {cs : List Char} (h : AreBlank cs) : StartsBlank cs :=
  fun c hc => h c (List.mem_of_mem_head? hc)

/-- Before any text, some blank characters make it start with one. -/
theorem AreBlank.startsBlank_append {cs : List Char} (h : AreBlank cs) (hne : cs ≠ [])
    (rest : List Char) : StartsBlank (cs ++ rest) := by
  intro c hc
  rw [List.head?_append_of_ne_nil cs hne] at hc
  exact h.startsBlank c hc

section Blank

variable {cs found other rest : List Char} {P : List Char → Prop}

/-- A prefix without blanks does not reach the first blank. -/
theorem isPrefix_of_append_blank (h : other <+: found ++ rest)
    (hother : ∀ c ∈ other, isBlank c = false) (hrest : StartsBlank rest) : other <+: found := by
  rcases List.prefix_or_prefix_of_prefix h (List.prefix_append found rest) with hle | ⟨more, rfl⟩
  · exact hle
  · have hmore : more <+: rest := (List.prefix_append_right_inj found).1 h
    cases more with
    | nil => rw [List.append_nil]
    | cons c more =>
      obtain ⟨others, rfl⟩ := hmore
      have hblank := hrest c rfl
      rw [hother c (List.mem_append_right _ List.mem_cons_self)] at hblank
      cases hblank

/-- The longest prefix without blanks stays the longest, whatever follows a blank after it. -/
theorem IsLongest.append_blank (h : IsLongest P found cs)
    (hP : ∀ other, P other → ∀ c ∈ other, isBlank c = false) (hrest : StartsBlank rest) :
    IsLongest P found (found ++ rest) where
  initial := List.prefix_append found rest
  kind := h.kind
  longest other hother hother' :=
    (isPrefix_of_append_blank hother (hP other hother') hrest).length_le

/-- A name has no blank characters. -/
theorem IsNameText.not_blank (h : IsNameText cs) : ∀ c ∈ cs, isBlank c = false :=
  fun c hc => isBlank_of_not_isSeparator (h.not_separator c hc)

/-- An invalid run has no blank characters. -/
theorem IsRun.not_blank (h : IsRun cs) : ∀ c ∈ cs, isBlank c = false :=
  fun c hc => isBlank_of_not_isSeparator (h.2 c hc)

end Blank

namespace Lexeme

variable {cs rest : List Char} {l : Lexeme}

/-- **What follows a blank is not seen**: a lexeme at the start of a text is there also if it is
    followed by nothing or by a blank character. -/
theorem IsFirst.append_blank (h : l.IsFirst cs) (hrest : StartsBlank rest) :
    l.IsFirst (l.chars ++ rest) := by
  -- what is no prefix of the text is none of the lexeme, and does not reach beyond it
  have hnone {P : List Char → Prop} (hP : ∀ other, P other → ∀ c ∈ other, isBlank c = false)
      {chars : List Char} (hinitial : chars <+: cs) (hnot : ∀ found, found <+: cs → ¬ P found) :
      ∀ found, found <+: chars ++ rest → ¬ P found := fun found hfound hkind =>
    hnot found ((isPrefix_of_append_blank hfound (hP found hkind) hrest).trans hinitial) hkind
  have hname : ∀ other, IsNameText other → ∀ c ∈ other, isBlank c = false := fun _ h => h.not_blank
  have hnumeral : ∀ other, IsNumeralText other → ∀ c ∈ other, isBlank c = false :=
    fun _ h => h.not_blank
  cases l with
  | leftParen => exact rfl
  | rightParen => exact rfl
  | op o => exact rfl
  | name chars => exact IsLongest.append_blank h hname hrest
  | number chars =>
    exact ⟨hnone hname h.2.initial h.1, h.2.append_blank hnumeral hrest⟩
  | invalid chars =>
    refine ⟨fun found hfound => ⟨?_, ?_⟩, h.2.append_blank (fun _ h => h.not_blank) hrest⟩
    · exact hnone hname h.2.initial (fun found hfound => (h.1 found hfound).1) found hfound
    · exact hnone hnumeral h.2.initial (fun found hfound => (h.1 found hfound).2) found hfound

/-! ### Lexemes in upper case -/

/-- A lexeme in upper case. -/
def upper : Lexeme → Lexeme
  | .leftParen => .leftParen
  | .rightParen => .rightParen
  | .op o => .op o
  | .name chars => .name (chars.map Char.toUpper)
  | .number chars => .number (chars.map Char.toUpper)
  | .invalid chars => .invalid (chars.map Char.toUpper)

/-- A lexeme is of the same kind in upper case. -/
theorem kind_upper (l : Lexeme) : l.upper.kind = l.kind := by
  cases l <;> rfl

end Lexeme

/-- No letter is an operator. -/
theorem ofSymbol?_eq_none_of_isAlpha {c : Char} (h : c.isAlpha = true) :
    Operator.ofSymbol? c = none :=
  (Lexeme.ne_symbol_of_isAlphanum (isAlphanum_of_isAlpha h)).2.2

/-- An operator is no letter, so its character is the same in upper case. -/
theorem ofSymbol?_toUpper (c : Char) : Operator.ofSymbol? c.toUpper = Operator.ofSymbol? c :=
  toUpper_congr (fun _ h => ofSymbol?_eq_none_of_isAlpha h) c

/-- A separator is no letter, so it is one in upper case, and no other character is. -/
theorem isSeparator_toUpper (c : Char) : isSeparator c.toUpper = isSeparator c :=
  toUpper_congr (fun _ h => isSeparator_of_isAlphanum (isAlphanum_of_isAlpha h)) c

/-- A blank character is no letter, so it is one in upper case, and no other character is. -/
theorem isBlank_toUpper (c : Char) : isBlank c.toUpper = isBlank c :=
  toUpper_congr (fun _ h => isBlank_of_isAlphanum (isAlphanum_of_isAlpha h)) c

/-- The name that a text starts with is there in upper case, and nothing else is. -/
theorem scanName_map_toUpper (cs : List Char) : scanName (cs.map Char.toUpper) =
    (scanName cs).map fun found => (found.1.map Char.toUpper, found.2.map Char.toUpper) := by
  have halpha : Char.isAlpha ∘ Char.toUpper = Char.isAlpha :=
    funext isAlpha_toUpper
  have hdigit : Char.isDigit ∘ Char.toUpper = Char.isDigit := funext isDigit_toUpper
  simp only [scanName, List.takeWhile_map, List.dropWhile_map, halpha, hdigit, List.map_eq_nil_iff]
  split
  · rfl
  · rw [Option.map_some, List.map_append]

namespace Lexeme

variable {c d : Char} {cs ds rest : List Char} {l : Lexeme}

/-- **The first lexeme of a text in upper case** is the first of the text, in upper case. -/
theorem first_map_toUpper (c : Char) (cs : List Char) :
    first c.toUpper (cs.map Char.toUpper) =
      ((first c cs).1.upper, (first c cs).2.map Char.toUpper) := by
  -- No letter case changes a symbol, or whether a character ends a run.
  have hopen : c.toUpper = '(' ↔ c = '(' := toUpper_eq_iff rfl
  have hclose : c.toUpper = ')' ↔ c = ')' := toUpper_eq_iff rfl
  have hrun : (fun c => !isSeparator c) ∘ Char.toUpper = fun c => !isSeparator c :=
    funext fun c => congrArg not (isSeparator_toUpper c)
  have hname := scanName_map_toUpper (c :: cs)
  have hnumeral := Numeral.scan_map_toUpper (c :: cs)
  rw [List.map_cons] at hname hnumeral
  simp only [first, hopen, hclose, ofSymbol?_toUpper, hname, hnumeral]
  -- The kinds of lexemes in the order in which they are tried.
  split
  · rfl
  split
  · rfl
  cases Operator.ofSymbol? c with
  | some o => rfl
  | none =>
    cases scanName (c :: cs) with
    | some found => rfl
    | none =>
      cases hscan : Numeral.scan (c :: cs) with
      | some found =>
        obtain ⟨n, rest⟩ := found
        simp only [Option.map_none, Option.map_some, upper, Numeral.spelling_upper hscan]
      | none =>
        simp only [Option.map_none, upper, List.map_cons, List.takeWhile_map, List.dropWhile_map,
          hrun]

/-- A lexeme is there also in other cases of its letters. -/
theorem first_of_sameLetters (h : first c cs = (l, rest)) (hword : SameLetters (d :: ds) l.chars) :
    ∃ m, first d (ds ++ rest) = (m, rest) ∧ m.upper = l.upper ∧ m.chars = d :: ds := by
  have hupper := first_map_toUpper d (ds ++ rest)
  -- in upper case, the two texts are the same
  have hsame : (d :: (ds ++ rest)).map Char.toUpper = (c :: cs).map Char.toUpper := by
    have happ := first_append c cs
    rw [h] at happ
    rw [← happ, ← List.cons_append, List.map_append, List.map_append, hword]
  obtain ⟨hd, hds⟩ := List.cons.inj hsame
  rw [hd, hds, first_map_toUpper, h, Prod.mk.injEq] at hupper
  obtain ⟨hlexeme, hrest⟩ := hupper
  -- what is left has as many characters, and so has the lexeme
  have happ := first_append d (ds ++ rest)
  obtain ⟨hchars, hleft⟩ := List.append_inj' (happ.trans (List.cons_append ..).symm)
    (by simpa using (congrArg List.length hrest).symm)
  exact ⟨_, Prod.ext rfl hleft, hlexeme.symm, hchars⟩

end Lexeme

/-! ### Texts with other spaces and cases -/

/-- Blank characters before a text are skipped. -/
theorem lexemes_blank_append {blanks : List Char} (h : AreBlank blanks) (cs : List Char) :
    lexemes (blanks ++ cs) = lexemes cs := by
  have htrim : trimLeft (blanks ++ cs) = trimLeft cs := List.dropWhile_append_of_pos h
  cases hcs : trimLeft cs with
  | nil => rw [lexemes_of_trimLeft_eq_nil hcs, lexemes_of_trimLeft_eq_nil (htrim.trans hcs)]
  | cons c rest =>
    rw [lexemes_of_trimLeft_eq_cons hcs, lexemes_of_trimLeft_eq_cons (htrim.trans hcs)]

/-- Blank characters alone have no lexemes. -/
theorem lexemes_of_areBlank {blanks : List Char} (h : AreBlank blanks) : lexemes blanks = [] :=
  lexemes_of_trimLeft_eq_nil (List.dropWhile_eq_nil_iff.2 h)

/-- A lexeme of any text, with other cases of its letters and before a blank, is a lexeme again. -/
theorem lexemes_word_append {l : Lexeme} {cs word rest : List Char} (h : l ∈ lexemes cs)
    (hword : SameLetters word l.chars) (hrest : StartsBlank rest) :
    ∃ m, lexemes (word ++ rest) = m :: lexemes rest ∧ m.upper = l.upper ∧ m.chars = word := by
  obtain ⟨left, hleft⟩ := exists_isFirst_of_mem_lexemes h
  obtain ⟨c, chars, hchars⟩ := List.exists_cons_of_ne_nil (chars_ne_nil_of_mem_lexemes h)
  have hfirst := hleft.append_blank hrest
  rw [hchars, List.cons_append] at hfirst
  -- the lexeme is there by itself, with the blank behind it
  have heq : Lexeme.first c (chars ++ rest) = (l, rest) := by
    have happ := Lexeme.first_append c (chars ++ rest)
    rw [← hfirst.eq_first, hchars, List.cons_append] at happ
    exact Prod.ext hfirst.eq_first.symm (List.append_cancel_left (List.cons.inj happ).2)
  cases word with
  | nil =>
    rw [SameLetters, hchars] at hword
    cases hword
  | cons d ds =>
    have hblank : isBlank d = false := by
      rw [SameLetters, hchars, List.map_cons, List.map_cons, List.cons.injEq] at hword
      rw [← isBlank_toUpper, hword.1, isBlank_toUpper]
      exact hleft.not_blank c (hchars ▸ List.mem_cons_self)
    obtain ⟨m, hm, hupper, hmchars⟩ := Lexeme.first_of_sameLetters heq hword
    exact ⟨m, lexemes_cons_of_first hblank hm, hupper, hmchars⟩

/-- **The lexemes of a text with other spaces and cases** are those of the first text, with the
    other cases. -/
theorem lexemes_spaced {ls : List Lexeme} {words : List (List Char)} {cs ds : List Char}
    (hls : ∀ l ∈ ls, l ∈ lexemes cs) (hwords : List.Forall₂ (SameLetters ·.chars) ls words)
    (h : Spaced words ds) :
    (lexemes ds).map Lexeme.upper = ls.map Lexeme.upper ∧
      (lexemes ds).map Lexeme.chars = words := by
  induction h generalizing ls with
  | nil hblanks =>
    cases hwords
    rw [lexemes_of_areBlank hblanks]
    exact ⟨rfl, rfl⟩
  | last hbefore hafter =>
    -- The last word is followed by blanks or by nothing, so it ends there.
    obtain ⟨l, _, hword, hnil, rfl⟩ := List.forall₂_cons_right_iff.1 hwords
    cases hnil
    obtain ⟨m, hm, hupper, hchars⟩ :=
      lexemes_word_append (hls l List.mem_cons_self) hword.symm hafter.startsBlank
    rw [lexemes_blank_append hbefore, hm, lexemes_of_areBlank hafter]
    simp [hupper, hchars]
  | cons hbefore hbetween hne _ ih =>
    -- A word ends at the blanks behind it, and the induction goes on behind these.
    obtain ⟨l, rest, hword, hrest, rfl⟩ := List.forall₂_cons_right_iff.1 hwords
    obtain ⟨m, hm, hupper, hchars⟩ := lexemes_word_append (hls l List.mem_cons_self) hword.symm
      (hbetween.startsBlank_append hne _)
    obtain ⟨hih, hih'⟩ := ih (fun l hl => hls l (List.mem_cons_of_mem _ hl)) hrest
    rw [lexemes_blank_append hbefore, hm, lexemes_blank_append hbetween]
    simp [hupper, hchars, hih, hih']

/-! ### Tokens -/

/-- A name in upper case is its own upper case. -/
theorem CellName.normalized_normalized (s : String) : normalized (normalized s) = normalized s := by
  apply String.toList_inj.1
  have htwice : Char.toUpper ∘ Char.toUpper = Char.toUpper := funext toUpper_toUpper
  simp only [normalized, String.toList_map, List.map_map, htwice]

/-- The upper case of a text names the cell that the text names. -/
theorem CellName.ofText?_normalized (s : String) : ofText? (normalized s) = ofText? s := by
  simp only [ofText?, normalized_normalized]

/-- A lexeme stands for the same token in upper case. -/
theorem Lexeme.token_upper (l : Lexeme) (t : Token) : l.upper.token = .ok t ↔ l.token = .ok t := by
  cases l with
  | leftParen => rfl
  | rightParen => rfl
  | op o => rfl
  | name chars =>
    have hname : String.ofList (chars.map Char.toUpper) =
        CellName.normalized (String.ofList chars) := by
      apply String.toList_inj.1
      simp [CellName.normalized]
    simp only [upper, token, hname, CellName.ofText?_normalized]
    cases CellName.ofText? (String.ofList chars) <;> simp
  | number chars =>
    simp only [upper, token, Double.read_map_toUpper]
    split <;> simp
  | invalid chars => simp [upper, token]

/-- Lexemes that are the same in upper case have the same tokens, one by one. -/
theorem map_token_of_map_upper {ls ms : List Lexeme} {ts : List Token}
    (h : ls.map Lexeme.upper = ms.map Lexeme.upper) (hls : ls.map Lexeme.token = ts.map .ok) :
    ms.map Lexeme.token = ts.map .ok := by
  induction ls generalizing ms ts with
  | nil =>
    rw [List.map_eq_nil_iff.1 h.symm]
    exact hls
  | cons l ls ih =>
    obtain ⟨m, ms, rfl, hm, hms⟩ := List.map_eq_cons_iff.1 h.symm
    obtain ⟨t, ts, rfl, ht, hts⟩ := List.map_eq_cons_iff.1 hls.symm
    have htoken : m.token = .ok t := by
      rw [← Lexeme.token_upper, hm, Lexeme.token_upper, ht]
    rw [List.map_cons, List.map_cons, htoken, ih hms.symm hts.symm]

namespace Formula

/-- What a text is read as depends only on its lexemes in upper case. -/
theorem read_of_map_upper {text other : String} {f : Formula}
    (h : (lexemes text.toList).map Lexeme.upper = (lexemes other.toList).map Lexeme.upper)
    (hf : read text = .ok f) : read other = .ok f :=
  read_eq_ok_iff.2 (map_token_of_map_upper h (read_eq_ok_iff.1 hf))

/-- **Spaces and letter case do not matter.**  If a text is made of the lexemes of another one, with
    other cases of letters in them and with any blank characters between them, then:
    * It has lexemes of the same kinds, which are the words that it was made of.
    * It is a formula when the other one is, and then both have the same tokens and are equal. -/
theorem read_respelled {text other : String} {words : List (List Char)}
    (hwords : List.Forall₂ (SameLetters ·.chars) (lexemes text.toList) words)
    (hother : Spaced words other.toList) :
    (lexemes other.toList).map Lexeme.kind = (lexemes text.toList).map Lexeme.kind ∧
    (lexemes other.toList).map Lexeme.chars = words ∧
    ((∃ f, read other = .ok f) ↔ ∃ f, read text = .ok f) ∧
    ∀ f g, read text = .ok f → read other = .ok g → g.tokens = f.tokens ∧ (g == f) = true := by
  obtain ⟨hupper, hchars⟩ := lexemes_spaced (fun _ h => h) hwords hother
  refine ⟨?_, hchars, ⟨?_, ?_⟩, fun f g hf hg => ?_⟩
  · have hkind := congrArg (List.map Lexeme.kind) hupper
    simpa [Function.comp_def, Lexeme.kind_upper] using hkind
  · exact fun ⟨f, hf⟩ => ⟨f, read_of_map_upper hupper hf⟩
  · exact fun ⟨f, hf⟩ => ⟨f, read_of_map_upper hupper.symm hf⟩
  · rw [read_of_map_upper hupper.symm hf, Except.ok.injEq] at hg
    obtain rfl := hg
    exact ⟨rfl, beq_self_eq_true f.text⟩

/-- The sum `a1+2e3` in capitals, with a blank before the operator, a tab after it and blanks at
    both ends of the text: what is read is a formula exactly when the sum is one. -/
theorem read_respelled_sum :
    List.Forall₂ (SameLetters ·.chars) (lexemes "a1+2e3".toList) [['A', '1'], ['+'], "2E3".toList] ∧
    Spaced [['A', '1'], ['+'], "2E3".toList] " A1 +\t2E3 ".toList ∧
    ((∃ f, read " A1 +\t2E3 " = .ok f) ↔ ∃ f, read "a1+2e3" = .ok f) := by
  have hnone : AreBlank [] := by simp [AreBlank]
  have hwords : List.Forall₂ (SameLetters ·.chars) (lexemes "a1+2e3".toList)
      [['A', '1'], ['+'], "2E3".toList] := by
    have hname : lexemes "a1+2e3".toList = .name ['a', '1'] :: lexemes "+2e3".toList :=
      lexemes_cons_of_first rfl rfl
    have hplus : lexemes "+2e3".toList = .op .add :: lexemes "2e3".toList :=
      lexemes_cons_of_first rfl rfl
    have hnumeral : lexemes "2e3".toList = .number "2e3".toList :: lexemes [] :=
      lexemes_cons_of_first rfl rfl
    rw [hname, hplus, hnumeral, lexemes_of_areBlank hnone]
    exact .cons rfl (.cons rfl (.cons rfl .nil))
  have hspace : AreBlank [' '] := by simp [AreBlank, isBlank]
  have htab : AreBlank ['\t'] := by simp [AreBlank, isBlank]
  have hother : Spaced [['A', '1'], ['+'], "2E3".toList] " A1 +\t2E3 ".toList :=
    .cons hspace hspace (List.cons_ne_nil _ _)
      (.cons hnone htab (List.cons_ne_nil _ _) (.last hnone hspace))
  exact ⟨hwords, hother, (read_respelled hwords hother).2.2.1⟩

end Formula

end LiveSheet
