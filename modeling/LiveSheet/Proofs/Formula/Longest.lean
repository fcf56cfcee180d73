import LiveSheet.Proofs.Decimal.Longest
import LiveSheet.Proofs.Formula.Canonical
import LiveSheet.Proofs.Formula.Pattern
import Mathlib.Algebra.Order.BigOperators.Group.List

namespace LiveSheet

/-!
# Lexemes are as long as they can be

What is cut off a text is a longest prefix: the longest name, where there is none the longest
numeral, and where there is none either the longest run without separators.

* `findsLongest_scanName` — the longest name is scanned.
* `Lexeme.IsFirst` — what a lexeme at the start of a text has to be.
* `Lexeme.isFirst_iff` — the first lexeme of a text is that, and no other lexeme.
* `CutsInto` — a text cut into lexemes, one after the other.
* `lexemes_longest` — the lexemes of a text are its only cut into such lexemes.
-/

/-! ### Names -/

/-- The texts of names. -/
def IsNameText (cs : List Char) : Prop := IsCellText (String.ofList cs)

/-- **The longest name is scanned.** -/
theorem findsLongest_scanName (cs : List Char) :
    FindsLongest IsNameText cs (scanName cs) where
  sound found rest h := ⟨scanName_append h, isCellText_of_scanName h⟩
  complete other hother hname := by
    obtain ⟨letters, digits, rfl, hletters, hdigits, hl, hd⟩ := isCellText_ofList.1 hname
    obtain ⟨rest, rfl⟩ := hother
    -- the letters end at the first digit, and the digits may go on
    have hfirst := not_isAlpha_head_of_digits hdigits hd rest
    have hleading : leadingDigits (digits ++ rest) = digits ++ leadingDigits rest :=
      List.takeWhile_append_of_pos hd
    refine ⟨letters ++ (digits ++ leadingDigits rest), afterDigits (digits ++ rest), ?_, ?_⟩
    · simp only [scanName, List.append_assoc, takeWhile_run_append hl hfirst,
        dropWhile_run_append hl hfirst, hleading, hletters, List.append_eq_nil_iff, hdigits,
        false_and, or_self, if_false]
    · simp only [List.length_append]
      omega

/-! ### Characters of names and numerals -/

/-- A character is no separator when it is not blank and no token by itself. -/
theorem isSeparator_eq_false_iff {c : Char} : isSeparator c = false ↔
    isBlank c = false ∧ c ≠ '(' ∧ c ≠ ')' ∧ Operator.ofSymbol? c = none := by
  simp only [isSeparator, Bool.or_eq_false_iff, beq_eq_false_iff_ne, Option.isSome_eq_false_iff,
    Option.isNone_iff_eq_none, and_assoc]

/-- No letter or digit is a separator. -/
theorem isSeparator_of_isAlphanum {c : Char} (h : c.isAlphanum = true) : isSeparator c = false :=
  isSeparator_eq_false_iff.2 ⟨isBlank_of_isAlphanum h, Lexeme.ne_symbol_of_isAlphanum h⟩

/-- A character that is no separator is not blank. -/
theorem isBlank_of_not_isSeparator {c : Char} (h : isSeparator c = false) : isBlank c = false :=
  (isSeparator_eq_false_iff.1 h).1

/-- No character of a name is a separator. -/
theorem IsNameText.not_separator {cs : List Char} (h : IsNameText cs) :
    ∀ c ∈ cs, isSeparator c = false := by
  obtain ⟨letters, digits, rfl, -, -, hl, hd⟩ := isCellText_ofList.1 h
  intro c hc
  rcases List.mem_append.1 hc with hc | hc
  · exact isSeparator_of_isAlphanum (isAlphanum_of_isAlpha (hl c hc))
  · exact isSeparator_of_isAlphanum (isAlphanum_of_isDigit (hd c hc))

/-- A name is not empty. -/
theorem IsNameText.ne_nil {cs : List Char} (h : IsNameText cs) : cs ≠ [] := by
  obtain ⟨letters, digits, rfl, hletters, -, -, -⟩ := isCellText_ofList.1 h
  exact List.append_ne_nil_of_left_ne_nil hletters digits

/-- No character before the exponent part is a separator. -/
theorem IsMantissa.not_separator {cs : List Char} (h : IsMantissa cs) :
    ∀ c ∈ cs, isSeparator c = false := by
  have hdigits : ∀ {ds}, AreDigits ds → ∀ c ∈ ds, isSeparator c = false := fun hds c hc =>
    isSeparator_of_isAlphanum (isAlphanum_of_isDigit (hds c hc))
  have hpoint : ∀ {whole fraction}, AreDigits whole → AreDigits fraction →
      ∀ c ∈ whole ++ '.' :: fraction, isSeparator c = false := by
    intro whole fraction hwhole hfraction c hc
    rcases List.mem_append.1 hc with hc | hc
    · exact hdigits hwhole c hc
    rcases List.mem_cons.1 hc with rfl | hc
    · decide
    · exact hdigits hfraction c hc
  cases h with
  | wholePoint _ hwhole hfraction => exact hpoint hwhole hfraction
  | pointFraction _ hwhole hfraction => exact hpoint hwhole hfraction
  | whole _ hwhole => exact hdigits hwhole

/-- A numeral has a character before its exponent part. -/
theorem IsMantissa.ne_nil {cs : List Char} (h : IsMantissa cs) : cs ≠ [] := by
  cases h with
  | wholePoint hne _ _ => exact List.append_ne_nil_of_left_ne_nil hne _
  | pointFraction _ _ _ => exact List.append_ne_nil_of_right_ne_nil _ (List.cons_ne_nil _ _)
  | whole hne _ => exact hne

/-- The sign in an exponent part is a separator, but no character of it is blank. -/
theorem IsExponentPart.not_blank {cs : List Char} (h : IsExponentPart cs) :
    ∀ c ∈ cs, isBlank c = false := by
  cases h with
  | absent => exact fun c hc => absurd hc List.not_mem_nil
  | present hmark hsign _ hdigits =>
    refine List.forall_mem_cons.2 ⟨by rcases hmark with rfl | rfl <;> decide, fun c hc => ?_⟩
    rcases List.mem_append.1 hc with hc | hc
    · rcases hsign c (Option.mem_toList.1 hc) with rfl | rfl <;> decide
    · exact isBlank_of_isAlphanum (isAlphanum_of_isDigit (hdigits c hc))

/-- A numeral has no blank characters. -/
theorem IsNumeralText.not_blank {cs : List Char} (h : IsNumeralText cs) :
    ∀ c ∈ cs, isBlank c = false := by
  obtain ⟨mantissa, exponent, rfl, hmantissa, hexponent⟩ := h
  intro c hc
  rcases List.mem_append.1 hc with hc | hc
  · exact isBlank_of_not_isSeparator (hmantissa.not_separator c hc)
  · exact hexponent.not_blank c hc

/-- A numeral is not empty. -/
theorem IsNumeralText.ne_nil {cs : List Char} (h : IsNumeralText cs) : cs ≠ [] := by
  obtain ⟨mantissa, exponent, rfl, hmantissa, -⟩ := h
  exact List.append_ne_nil_of_left_ne_nil hmantissa.ne_nil exponent

/-- A numeral does not start with a separator. -/
theorem IsNumeralText.head_not_separator {cs : List Char} (h : IsNumeralText cs) :
    ∀ c ∈ cs.head?, isSeparator c = false := by
  obtain ⟨mantissa, exponent, rfl, hmantissa, -⟩ := h
  intro c hc
  rw [List.head?_append_of_ne_nil _ hmantissa.ne_nil] at hc
  exact hmantissa.not_separator c (List.mem_of_mem_head? hc)

/-- A text does not start with a separator if it has a prefix that does not. -/
theorem not_separator_of_isPrefix {c : Char} {cs found : List Char} (h : found <+: c :: cs)
    (hne : found ≠ []) (hhead : ∀ d ∈ found.head?, isSeparator d = false) :
    isSeparator c = false := by
  obtain ⟨d, ds, rfl⟩ := List.exists_cons_of_ne_nil hne
  obtain ⟨rfl, -⟩ := List.cons_prefix_cons.1 h
  exact hhead d rfl

/-! ### Runs -/

/-- One or more characters, none of them a separator. -/
def IsRun (cs : List Char) : Prop := cs ≠ [] ∧ ∀ c ∈ cs, isSeparator c = false

/-- The longest run goes on to the next separator. -/
theorem isLongest_run {c : Char} (h : isSeparator c = false) (cs : List Char) :
    IsLongest IsRun (c :: cs.takeWhile (!isSeparator ·)) (c :: cs) where
  initial := ⟨cs.dropWhile (!isSeparator ·), by
    rw [List.cons_append, List.takeWhile_append_dropWhile]⟩
  kind := by
    refine ⟨List.cons_ne_nil _ _, List.forall_mem_cons.2 ⟨h, fun d hd => ?_⟩⟩
    have hrun := List.mem_takeWhile_imp hd
    simpa only [Bool.not_eq_true'] using hrun
  -- Another run has no separator, so `takeWhile` does not stop inside it.
  longest other hother hrun := by
    obtain ⟨rest, hrest⟩ := hother
    cases other with
    | nil => exact Nat.zero_le _
    | cons d others =>
      rw [List.cons_append] at hrest
      obtain ⟨rfl, rfl⟩ := List.cons.inj hrest
      have hothers : ∀ d ∈ others, (!isSeparator d) = true := fun d hd => by
        rw [hrun.2 d (List.mem_cons_of_mem _ hd)]
        rfl
      rw [List.takeWhile_append_of_pos hothers, List.length_cons, List.length_cons,
        List.length_append]
      omega

/-! ### The first lexeme of a text -/

namespace Lexeme

/-- What a lexeme at the start of a text has to be.  Names, numerals and runs start neither with a
    parenthesis nor with an operator, so there is at most one such lexeme. -/
def IsFirst (cs : List Char) : Lexeme → Prop
  | .leftParen => cs.head? = some '('
  | .rightParen => cs.head? = some ')'
  | .op o => cs.head? = some o.symbol
  | .name chars => IsLongest IsNameText chars cs
  | .number chars => (∀ found, found <+: cs → ¬ IsNameText found) ∧ IsLongest IsNumeralText chars cs
  | .invalid chars => (∀ found, found <+: cs → ¬ IsNameText found ∧ ¬ IsNumeralText found) ∧
      IsLongest IsRun chars cs

variable {c : Char} {cs : List Char} {l : Lexeme}

/-- No lexeme at the start of a text has a blank character. -/
theorem IsFirst.not_blank (h : l.IsFirst cs) : ∀ c ∈ l.chars, isBlank c = false := by
  cases l with
  | leftParen => exact List.forall_mem_singleton.2 rfl
  | rightParen => exact List.forall_mem_singleton.2 rfl
  | op o => exact List.forall_mem_singleton.2 (by cases o <;> rfl)
  | name chars => exact fun c hc => isBlank_of_not_isSeparator (h.kind.not_separator c hc)
  | number chars => exact h.2.kind.not_blank
  | invalid chars => exact fun c hc => isBlank_of_not_isSeparator (h.2.kind.2 c hc)

/-- What is not cut off as a parenthesis or an operator is scanned. -/
theorem first_of_not_separator (h : isSeparator c = false) : (first c cs).1 =
    match scanName (c :: cs), Numeral.scan (c :: cs) with
    | some (found, _), _ => .name found
    | none, some (n, _) => .number n.spelling
    | none, none => .invalid (c :: cs.takeWhile (!isSeparator ·)) := by
  obtain ⟨-, hopen, hclose, hop⟩ := isSeparator_eq_false_iff.1 h
  simp only [first, hopen, hclose, if_false, hop]
  cases scanName (c :: cs) with
  | some found => rfl
  | none => cases Numeral.scan (c :: cs) <;> rfl

/-- The first lexeme of a text is what it has to be. -/
theorem isFirst_first (h : isBlank c = false) : (first c cs).1.IsFirst (c :: cs) := by
  unfold first
  -- The kinds of lexemes in the order in which they are tried.
  split
  · next hopen => exact congrArg some hopen
  split
  · next hclose => exact congrArg some hclose
  split
  · next o hop => exact congrArg some (Operator.eq_symbol_of_ofSymbol? hop)
  -- The first character is none of the symbols: a name, a numeral or an invalid run.
  next hopen hclose _ hop =>
  split
  · next found rest hname => exact (findsLongest_scanName _).isLongest hname
  next _ hname =>
  -- What fails here is remembered, since an invalid run is neither a name nor a numeral.
  have hnone := (findsLongest_scanName (c :: cs)).eq_none_iff.1 hname
  split
  · next n rest hscan =>
    exact ⟨hnone, (Numeral.findsLongest_scan (c :: cs)).isLongest (by rw [hscan]; rfl)⟩
  · next _ hscan =>
    have hnone' := (Numeral.findsLongest_scan (c :: cs)).eq_none_iff.1 (by rw [hscan]; rfl)
    exact ⟨fun found hfound => ⟨hnone found hfound, hnone' found hfound⟩,
      isLongest_run (isSeparator_eq_false_iff.2 ⟨h, hopen, hclose, hop⟩) cs⟩

/-- A lexeme that is what it has to be is the first one. -/
theorem IsFirst.eq_first (h : l.IsFirst (c :: cs)) : l = (first c cs).1 := by
  cases l with
  | leftParen => cases h; rfl
  | rightParen => cases h; rfl
  | op o =>
    obtain rfl := Option.some.inj h
    cases o <;> rfl
  | name chars =>
    -- A longest name, numeral or run determines what the scanner finds.
    obtain ⟨rest, hname⟩ := (findsLongest_scanName (c :: cs)).eq_some h
    have hc : isSeparator c = false := not_separator_of_isPrefix h.initial h.kind.ne_nil fun d hd =>
      h.kind.not_separator d (List.mem_of_mem_head? hd)
    rw [first_of_not_separator hc, hname]
  | number chars =>
    have hname := (findsLongest_scanName (c :: cs)).eq_none_iff.2 h.1
    obtain ⟨rest, hnumeral⟩ := (Numeral.findsLongest_scan (c :: cs)).eq_some h.2
    obtain ⟨⟨n, left⟩, hscan, heq⟩ := Option.map_eq_some_iff.1 hnumeral
    cases heq
    have hc : isSeparator c = false :=
      not_separator_of_isPrefix h.2.initial h.2.kind.ne_nil h.2.kind.head_not_separator
    rw [first_of_not_separator hc, hname, hscan]
  | invalid chars =>
    have hname := (findsLongest_scanName (c :: cs)).eq_none_iff.2 fun found hfound =>
      (h.1 found hfound).1
    have hscan := Option.map_eq_none_iff.1 ((Numeral.findsLongest_scan (c :: cs)).eq_none_iff.2
      fun found hfound => (h.1 found hfound).2)
    have hc : isSeparator c = false := not_separator_of_isPrefix h.2.initial h.2.kind.1 fun d hd =>
      h.2.kind.2 d (List.mem_of_mem_head? hd)
    rw [first_of_not_separator hc, hname, hscan]
    exact congrArg invalid (h.2.unique (isLongest_run hc cs))

/-- **The first lexeme of a text is the only one that is what it has to be.** -/
theorem isFirst_iff (h : isBlank c = false) : l.IsFirst (c :: cs) ↔ l = (first c cs).1 :=
  ⟨IsFirst.eq_first, fun heq => heq ▸ isFirst_first h⟩

end Lexeme

/-! ### All lexemes of a text -/

/-- A text cut into lexemes, each of them what `IsNext` says of the text that is left there.  Blank
    characters before, between and after the lexemes are skipped. -/
inductive CutsInto (IsNext : List Char → Lexeme → Prop) : List Char → List Lexeme → Prop where
  | nil {blanks : List Char} : (∀ b ∈ blanks, isBlank b = true) → CutsInto IsNext blanks []
  | cons {blanks rest cs : List Char} {c : Char} {l : Lexeme} {ls : List Lexeme} :
      (∀ b ∈ blanks, isBlank b = true) → isBlank c = false → l.chars ++ rest = c :: cs →
      IsNext (c :: cs) l → CutsInto IsNext rest ls → CutsInto IsNext (blanks ++ c :: cs) (l :: ls)

/-- A text is its leading blank characters and what is left when they are skipped. -/
theorem takeWhile_append_trimLeft (cs : List Char) : cs.takeWhile isBlank ++ trimLeft cs = cs :=
  List.takeWhile_append_dropWhile

/-- **There is one way to cut a text**, if there is one lexeme that can come next everywhere. -/
theorem cutsInto_iff {IsNext : List Char → Lexeme → Prop}
    (hnext : ∀ c cs l, isBlank c = false → (IsNext (c :: cs) l ↔ l = (Lexeme.first c cs).1))
    {cs : List Char} {ls : List Lexeme} : CutsInto IsNext cs ls ↔ ls = lexemes cs := by
  constructor
  · intro h
    induction h with
    | @nil blanks hblanks =>
      have htrim : trimLeft blanks = [] := List.dropWhile_eq_nil_iff.2 hblanks
      rw [lexemes_of_trimLeft_eq_nil htrim]
    | @cons blanks rest cs c l ls hblanks hc hsplit hl _ ih =>
      have htrim : trimLeft (blanks ++ c :: cs) = c :: cs :=
        (List.dropWhile_append_of_pos hblanks).trans (trimLeft_cons hc)
      obtain rfl := (hnext c cs l hc).1 hl
      -- the lexeme and what is left of the text make up the text in one way
      have hrest : rest = (Lexeme.first c cs).2 :=
        List.append_cancel_left (hsplit.trans (Lexeme.first_append c cs).symm)
      rw [lexemes_of_trimLeft_eq_cons htrim, ih, hrest]
  · rintro rfl
    fun_induction lexemes cs with
    | case1 cs htrim =>
      exact .nil (List.dropWhile_eq_nil_iff.1 htrim)
    | case2 cs c rest htrim ih =>
      have hblanks : ∀ b ∈ cs.takeWhile isBlank, isBlank b = true := fun b => List.mem_takeWhile_imp
      have hc := isBlank_of_trimLeft htrim
      have hcut := CutsInto.cons hblanks hc (Lexeme.first_append c rest)
        ((hnext c rest _ hc).2 rfl) ih
      rw [← htrim, takeWhile_append_trimLeft] at hcut
      exact hcut

/-- A lexeme of a text is the first of what is left there. -/
theorem exists_isFirst_of_mem_lexemes {l : Lexeme} {cs : List Char} (h : l ∈ lexemes cs) :
    ∃ left, l.IsFirst left := by
  obtain ⟨c, rest, hblank, rfl⟩ := exists_first_of_mem_lexemes h
  exact ⟨c :: rest, Lexeme.isFirst_first hblank⟩

/-- The characters of the lexemes are those of the text that are not blank. -/
theorem flatMap_chars_lexemes (cs : List Char) :
    (lexemes cs).flatMap Lexeme.chars = cs.filter (!isBlank ·) := by
  fun_induction lexemes cs with
  | case1 cs htrim =>
    have hblank : ∀ c ∈ cs, isBlank c = true := List.dropWhile_eq_nil_iff.1 htrim
    exact (List.filter_eq_nil_iff.2 fun c hc => by simp [hblank c hc]).symm
  | case2 cs c rest htrim ih =>
    -- The blanks that are skipped drop out of the text.
    have hskip : (cs.takeWhile isBlank).filter (!isBlank ·) = [] :=
      List.filter_eq_nil_iff.2 fun b hb => by simp [List.mem_takeWhile_imp hb]
    -- A lexeme has no blanks, so it stays as it is.
    have hfirst : (Lexeme.first c rest).1.IsFirst (c :: rest) :=
      Lexeme.isFirst_first (isBlank_of_trimLeft htrim)
    have hkeep : (Lexeme.first c rest).1.chars.filter (!isBlank ·)
        = (Lexeme.first c rest).1.chars :=
      List.filter_eq_self.2 fun d hd => by simp [hfirst.not_blank d hd]
    calc ((Lexeme.first c rest).1 :: lexemes (Lexeme.first c rest).2).flatMap Lexeme.chars
        = (Lexeme.first c rest).1.chars ++ (Lexeme.first c rest).2.filter (!isBlank ·) := by
          rw [List.flatMap_cons, ih]
      _ = (c :: rest).filter (!isBlank ·) := by
          rw [← Lexeme.first_append c rest, List.filter_append, hkeep]
      _ = cs.filter (!isBlank ·) := by
          rw [← takeWhile_append_trimLeft cs, List.filter_append, hskip, htrim, List.nil_append]

/-- No lexeme of a text is empty. -/
theorem chars_ne_nil_of_mem_lexemes {cs : List Char} {l : Lexeme} (h : l ∈ lexemes cs) :
    l.chars ≠ [] := by
  obtain ⟨c, rest, -, rfl⟩ := exists_first_of_mem_lexemes h
  exact Lexeme.first_chars_ne_nil c rest

/-- A text has at most as many lexemes as characters that are not blank. -/
theorem length_lexemes_le (cs : List Char) :
    (lexemes cs).length ≤ (cs.filter (!isBlank ·)).length := by
  have hpos : ∀ n ∈ (lexemes cs).map (·.chars.length), 1 ≤ n := by
    refine List.forall_mem_map.2 fun l hl => ?_
    exact List.length_pos_iff.2 (chars_ne_nil_of_mem_lexemes hl)
  rw [← flatMap_chars_lexemes, List.length_flatMap]
  simpa only [List.length_map] using List.length_le_sum_of_one_le _ hpos

/-- **Nothing of a text is lost, and every lexeme is as long as it can be.**  Whatever the text:
    * It has one cut into lexemes that are what a lexeme at their place has to be: a parenthesis, an
      operator, else the longest name, else the longest numeral, else the longest run without
      separators.  Each starts where the one before it ends, or after the blank characters there.
    * It has one cut into the first fits of the pattern of all lexemes, with a run where nothing
      fits.  This is the same cut, so the first fit is always a longest one.
    * The characters of its lexemes are those of the text that are not blank, in order.
    * No lexeme is empty. -/
theorem lexemes_longest (cs : List Char) :
    (∀ ls, CutsInto (fun left l => l.IsFirst left) cs ls ↔ ls = lexemes cs) ∧
    (∀ ls, CutsInto (fun left l => l = Lexeme.fitted left) cs ls ↔ ls = lexemes cs) ∧
    (lexemes cs).flatMap Lexeme.chars = cs.filter (!isBlank ·) ∧
    (∀ l ∈ lexemes cs, l.chars ≠ []) ∧ (lexemes cs).length ≤ (cs.filter (!isBlank ·)).length := by
  refine ⟨fun ls => cutsInto_iff fun c rest l hc => Lexeme.isFirst_iff hc,
    fun ls => cutsInto_iff fun c rest l _ => ?_, flatMap_chars_lexemes cs,
    fun l hl => chars_ne_nil_of_mem_lexemes hl, length_lexemes_le cs⟩
  rw [Lexeme.fitted_cons]

/-- What looks like a numeral at first may end early, and what is left is cut as any other text. -/
example : lexemes "2.e5 1e+ A1B .".toList =
    [.number "2.e5".toList, .number ['1'], .invalid ['e'], .op .add, .name "A1".toList,
      .invalid ['B'], .invalid ['.']] := by cbv

end LiveSheet
