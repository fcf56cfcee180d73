import LiveSheet.Proofs.Cell.Typing

namespace LiveSheet

/-!
# Lexemes by a pattern

A pattern that is tried with backtracking fits a text in several ways, and these have an order: an
alternative comes before those to its right, and a repetition takes as many characters as it can
before it tries with fewer.  Lexemes are what the first way takes, when the alternatives are a
parenthesis, an operator, a name and a numeral.

* `Pattern.fits` — all ways in which a pattern fits the start of a text, in order.
* `Pattern.firstFit` — the first of them.
* `namePattern`, `numeralPattern` — the patterns of names and numerals.
* `firstFit_name`, `firstFit_numeral` — their first fits are what is scanned.
* `Lexeme.fitted_cons` — so the first lexeme of a text is what the pattern of all lexemes takes.
-/

/-- A regular expression that repeats single characters only. -/
inductive Pattern where
  | empty
  | one (p : Char → Bool)
  | many (p : Char → Bool)
  | seq (a b : Pattern)
  | either (a b : Pattern)

namespace Pattern

/-- What a repetition can take, with what it leaves, from as many characters as it can to none. -/
def runFits (p : Char → Bool) : List Char → List (List Char × List Char)
  | [] => [([], [])]
  | c :: cs =>
    if p c then ((runFits p cs).map fun fit => (c :: fit.1, fit.2)) ++ [([], c :: cs)]
    else [([], c :: cs)]

/-- All ways in which a pattern fits the start of a text, with what follows, in order. -/
def fits : Pattern → List Char → List (List Char × List Char)
  | .empty, cs => [([], cs)]
  | .one _, [] => []
  | .one p, c :: cs => if p c then [([c], cs)] else []
  | .many p, cs => runFits p cs
  | .seq a b, cs =>
    (a.fits cs).flatMap fun fit => (b.fits fit.2).map fun next => (fit.1 ++ next.1, next.2)
  | .either a b, cs => a.fits cs ++ b.fits cs

/-- The way in which a pattern fits the start of a text. -/
def firstFit (a : Pattern) (cs : List Char) : Option (List Char × List Char) := (a.fits cs).head?

/-- One or more characters of a kind. -/
def many1 (p : Char → Bool) : Pattern := .seq (.one p) (.many p)

/-- A pattern that may be left out. -/
def opt (a : Pattern) : Pattern := .either a .empty

variable {a b : Pattern} {p : Char → Bool} {c : Char} {cs found rest next left : List Char}

/-! ### Fits of the parts -/

/-- There is no first fit when there is none at all. -/
theorem firstFit_eq_none_iff : a.firstFit cs = none ↔ a.fits cs = [] := List.head?_eq_none_iff

/-- A single character does not fit where none of its kind stands. -/
theorem fits_one_eq_nil (h : ∀ c ∈ cs.head?, p c = false) : (one p).fits cs = [] := by
  cases cs with
  | nil => rfl
  | cons c cs => rw [fits, h c rfl, if_neg Bool.false_ne_true]

/-- A single character fits in one way. -/
theorem fits_one_cons (h : p c = true) : (one p).fits (c :: cs) = [([c], cs)] := by
  rw [fits, if_pos h]

/-- A single character takes the first character of the text. -/
theorem firstFit_one_cons (h : p c = true) : (one p).firstFit (c :: cs) = some ([c], cs) := by
  rw [firstFit, fits_one_cons h, List.head?_cons]

/-- A single character takes no character of another kind. -/
theorem firstFit_one_eq_none (h : p c = false) : (one p).firstFit (c :: cs) = none := by
  refine firstFit_eq_none_iff.2 (fits_one_eq_nil ?_)
  rintro d ⟨⟩
  exact h

/-- Of a pattern after a single character there are the fits behind that character. -/
theorem fits_one_seq_eq_nil_iff (h : p c = true) :
    (seq (one p) b).fits (c :: cs) = [] ↔ b.fits cs = [] := by
  rw [fits, fits_one_cons h, List.flatMap_singleton, List.map_eq_nil_iff]

/-- A pattern fits before another where the other fits what follows. -/
theorem fits_seq_eq_nil_iff : (seq a b).fits cs = [] ↔ ∀ fit ∈ a.fits cs, b.fits fit.2 = [] := by
  simp only [fits, List.flatMap_eq_nil_iff, List.map_eq_nil_iff]

/-- Where a pattern does not fit, nothing that begins with it does. -/
theorem fits_seq_of_eq_nil (h : a.fits cs = []) : (seq a b).fits cs = [] := by
  rw [fits, h, List.flatMap_nil]

/-- A pattern that takes nothing does not change what fits behind it. -/
theorem fits_seq_of_fits_nothing (h : a.fits cs = [([], cs)]) : (seq a b).fits cs = b.fits cs := by
  rw [fits, h, List.flatMap_singleton]
  simp only [List.nil_append, List.map_id']

/-- No fit of the first pattern is given up when the second fits what follows it. -/
theorem firstFit_seq (ha : a.firstFit cs = some (found, rest))
    (hb : b.firstFit rest = some (next, left)) :
    (seq a b).firstFit cs = some (found ++ next, left) := by
  obtain ⟨others, hothers⟩ := List.head?_eq_some_iff.1 ha
  obtain ⟨others', hothers'⟩ := List.head?_eq_some_iff.1 hb
  rw [firstFit, fits, hothers, List.flatMap_cons, hothers', List.map_cons, List.cons_append,
    List.head?_cons]

/-- **The second alternative counts only where the first does not fit.** -/
theorem firstFit_either : (either a b).firstFit cs = (a.firstFit cs).or (b.firstFit cs) := by
  rw [firstFit, fits, List.head?_append, firstFit, firstFit]

/-! ### Repetitions -/

/-- **A repetition first takes as much as it can**, by induction on the text. -/
theorem firstFit_many : (many p).firstFit cs = some (cs.takeWhile p, cs.dropWhile p) := by
  induction cs with
  | nil => rfl
  | cons c cs ih =>
    rw [firstFit, fits, runFits]
    by_cases hc : p c = true
    · have hhead : (runFits p cs).head? = some (cs.takeWhile p, cs.dropWhile p) := ih
      rw [if_pos hc, List.head?_append, List.head?_map, hhead, List.takeWhile_cons_of_pos hc,
        List.dropWhile_cons_of_pos hc]
      rfl
    · rw [if_neg hc, List.takeWhile_cons_of_neg hc, List.dropWhile_cons_of_neg hc]
      rfl

/-- What a repetition leaves: all that follows the characters it can take, or more, from one of them
    on. -/
def LeavesRun (p : Char → Bool) (cs rest : List Char) : Prop :=
  rest = cs.dropWhile p ∨ ∃ c cs', rest = c :: cs' ∧ p c = true

/-- Whatever way a repetition fits, it leaves what follows the run, or more. -/
theorem leavesRun_many {fit : List Char × List Char} (h : fit ∈ (many p).fits cs) :
    LeavesRun p cs fit.2 := by
  change fit ∈ runFits p cs at h
  induction cs generalizing fit with
  | nil => exact Or.inl (by rw [List.mem_singleton.1 h]; rfl)
  | cons c cs ih =>
    rw [runFits] at h
    by_cases hc : p c = true
    · rw [if_pos hc, List.mem_append] at h
      rw [LeavesRun, List.dropWhile_cons_of_pos hc]
      rcases h with h | h
      · -- One more character is taken.
        obtain ⟨less, hless, rfl⟩ := List.mem_map.1 h
        have hrest := ih hless
        exact hrest
      · -- The repetition stops although it could go on.
        rw [List.mem_singleton.1 h]
        exact Or.inr ⟨c, cs, rfl, hc⟩
    · rw [if_neg hc, List.mem_singleton] at h
      rw [h, LeavesRun, List.dropWhile_cons_of_neg hc]
      exact Or.inl rfl

/-- One or more characters do not fit where none stands. -/
theorem fits_many1_eq_nil (h : cs.takeWhile p = []) : (many1 p).fits cs = [] := by
  refine fits_seq_of_eq_nil (fits_one_eq_nil fun c hc => ?_)
  obtain ⟨cs', rfl⟩ := List.head?_eq_some_iff.1 hc
  cases hp : p c with
  | false => rfl
  | true =>
    rw [List.takeWhile_cons_of_pos hp] at h
    cases h

/-- One or more characters first take as many as they can. -/
theorem firstFit_many1 (h : cs.takeWhile p ≠ []) :
    (many1 p).firstFit cs = some (cs.takeWhile p, cs.dropWhile p) := by
  cases cs with
  | nil => exact absurd rfl h
  | cons c cs =>
    by_cases hc : p c = true
    · rw [List.takeWhile_cons_of_pos hc, List.dropWhile_cons_of_pos hc]
      exact firstFit_seq (firstFit_one_cons hc) firstFit_many
    · exact absurd (List.takeWhile_cons_of_neg hc) h

/-- One or more characters leave what follows the run, or more, whatever way they fit. -/
theorem leavesRun_many1 {fit : List Char × List Char} (h : fit ∈ (many1 p).fits cs) :
    LeavesRun p cs fit.2 := by
  cases cs with
  | nil => exact absurd h List.not_mem_nil
  | cons c cs =>
    by_cases hc : p c = true
    · rw [many1, fits, fits_one_cons hc, List.flatMap_singleton] at h
      obtain ⟨less, hless, rfl⟩ := List.mem_map.1 h
      rw [LeavesRun, List.dropWhile_cons_of_pos hc]
      have hrest := leavesRun_many hless
      exact hrest
    · rw [fits_many1_eq_nil (List.takeWhile_cons_of_neg hc)] at h
      exact absurd h List.not_mem_nil

/-- Nothing is gained by repeating less, if what could be taken does not fit behind it. -/
theorem fits_seq_eq_nil_of_leavesRun (ha : ∀ fit ∈ a.fits cs, LeavesRun p cs fit.2)
    (h : b.fits (cs.dropWhile p) = []) (hless : ∀ c cs, p c = true → b.fits (c :: cs) = []) :
    (seq a b).fits cs = [] := by
  refine fits_seq_eq_nil_iff.2 fun fit hfit => ?_
  rcases ha fit hfit with heq | ⟨c, cs', heq, hc⟩
  · rw [heq, h]
  · rw [heq, hless c cs' hc]

/-- A repetition starts where the first fit before it ends, if no other fit leads on where that one
    does not. -/
theorem firstFit_seq_many1 (ha : a.firstFit cs = some (found, rest))
    (hothers : rest.takeWhile p = [] → ∀ fit ∈ a.fits cs, fit.2.takeWhile p = []) :
    (seq a (many1 p)).firstFit cs =
      if rest.takeWhile p = [] then none
      else some (found ++ rest.takeWhile p, rest.dropWhile p) := by
  by_cases hrest : rest.takeWhile p = []
  · rw [if_pos hrest, firstFit_eq_none_iff, fits_seq_eq_nil_iff]
    exact fun fit hfit => fits_many1_eq_nil (hothers hrest fit hfit)
  · rw [if_neg hrest]
    exact firstFit_seq ha (firstFit_many1 hrest)

end Pattern

/-! ### Names -/

open Pattern

/-- ASCII letters, then ASCII digits. -/
def namePattern : Pattern := .seq (many1 Char.isAlpha) (many1 Char.isDigit)

/-- **The first name that fits is the one that is scanned.** -/
theorem firstFit_name (cs : List Char) : namePattern.firstFit cs = scanName cs := by
  by_cases hletters : cs.takeWhile Char.isAlpha = []
  · rw [scanName, if_pos (Or.inl hletters)]
    exact firstFit_eq_none_iff.2 (fits_seq_of_eq_nil (fits_many1_eq_nil hletters))
  · have hfit : namePattern.firstFit cs = _ :=
      firstFit_seq_many1 (firstFit_many1 hletters) fun hdigits fit hfit => by
        -- after fewer letters, a letter stands where a digit has to
        rcases leavesRun_many1 hfit with heq | ⟨c, cs', heq, hc⟩
        · rw [heq, hdigits]
        · rw [heq, List.takeWhile_cons_of_neg]
          intro hd
          rw [isAlpha_eq_false_of_isDigit hd] at hc
          cases hc
    simp only [hfit, scanName, hletters, false_or]

/-! ### Numerals -/

/-- A point, then what a pattern fits. -/
def pointThen (a : Pattern) : Pattern := .seq (.one (· == '.')) a

/-- Digits with a point after them, or digits with a point before them, or digits. -/
def mantissaPattern : Pattern :=
  .either (.seq (many1 Char.isDigit) (pointThen (.many Char.isDigit)))
    (.either (.seq (.many Char.isDigit) (pointThen (many1 Char.isDigit))) (many1 Char.isDigit))

/-- The signs of exponents. -/
def isSign (c : Char) : Bool := c == '-' || c == '+'

/-- The marks before exponents. -/
def isMark (c : Char) : Bool := c == 'e' || c == 'E'

/-- An optional sign, then digits. -/
def signedPattern : Pattern := .seq (opt (.one isSign)) (many1 Char.isDigit)

/-- An exponent part, or nothing. -/
def exponentPattern : Pattern := opt (.seq (.one isMark) signedPattern)

/-- A numeral. -/
def numeralPattern : Pattern := .seq mantissaPattern exponentPattern

/-- What begins with a point does not fit where no point stands. -/
theorem fits_pointThen_eq_nil {a : Pattern} {cs : List Char} (h : ∀ c ∈ cs.head?, c ≠ '.') :
    (pointThen a).fits cs = [] :=
  fits_seq_of_eq_nil (fits_one_eq_nil fun c hc => beq_eq_false_iff_ne.2 (h c hc))

section Mantissa

variable {cs rest : List Char}

/-- What begins with a point does not fit where a digit stands. -/
theorem fits_pointThen_cons_of_isDigit {a : Pattern} (c : Char) (cs : List Char)
    (h : c.isDigit = true) : (pointThen a).fits (c :: cs) = [] := by
  refine fits_pointThen_eq_nil ?_
  rintro d ⟨⟩ rfl
  cases h

/-- Without a point after its first digits, a text fits by these alone. -/
theorem firstFit_mantissa_of_ne_point (h : ∀ c ∈ (afterDigits cs).head?, c ≠ '.') :
    mantissaPattern.firstFit cs = (many1 Char.isDigit).firstFit cs := by
  have hpoint : ∀ a, (pointThen a).fits (afterDigits cs) = [] := fun a => fits_pointThen_eq_nil h
  rw [mantissaPattern, firstFit_either, firstFit_either,
    firstFit_eq_none_iff.2 (fits_seq_eq_nil_of_leavesRun (fun _ => leavesRun_many1) (hpoint _)
      fits_pointThen_cons_of_isDigit),
    firstFit_eq_none_iff.2 (fits_seq_eq_nil_of_leavesRun (fun _ => leavesRun_many) (hpoint _)
      fits_pointThen_cons_of_isDigit),
    Option.none_or, Option.none_or]

/-- Digits and the point after them are taken with all digits that follow. -/
theorem firstFit_mantissa_of_digits (h : leadingDigits cs ≠ [])
    (hpoint : afterDigits cs = '.' :: rest) : mantissaPattern.firstFit cs =
      some (leadingDigits cs ++ '.' :: leadingDigits rest, afterDigits rest) := by
  have hfit : (pointThen (.many Char.isDigit)).firstFit (afterDigits cs)
      = some ('.' :: leadingDigits rest, afterDigits rest) := by
    rw [hpoint]
    exact firstFit_seq (firstFit_one_cons rfl) firstFit_many
  rw [mantissaPattern, firstFit_either, firstFit_seq (firstFit_many1 h) hfit, Option.some_or]

/-- A point that a text starts with is taken with the digits after it, if there are any. -/
theorem firstFit_mantissa_point : mantissaPattern.firstFit ('.' :: rest) =
    if leadingDigits rest = [] then none
    else some ('.' :: leadingDigits rest, afterDigits rest) := by
  have hdigits : (many1 Char.isDigit).fits ('.' :: rest) = [] := fits_many1_eq_nil rfl
  have hfirst : (seq (many1 Char.isDigit) (pointThen (.many Char.isDigit))).fits ('.' :: rest)
      = [] := fits_seq_of_eq_nil hdigits
  have hsecond : (seq (.many Char.isDigit) (pointThen (many1 Char.isDigit))).firstFit ('.' :: rest)
      = (pointThen (many1 Char.isDigit)).firstFit ('.' :: rest) :=
    congrArg List.head? (fits_seq_of_fits_nothing rfl)
  rw [mantissaPattern, firstFit_either, firstFit_either, firstFit_eq_none_iff.2 hfirst,
    firstFit_eq_none_iff.2 hdigits, Option.none_or, Option.or_none, hsecond]
  refine firstFit_seq_many1 (firstFit_one_cons rfl) fun hnone fit hfit => ?_
  rw [fits_one_cons rfl, List.mem_singleton] at hfit
  rw [hfit, hnone]

end Mantissa

/-- The first mantissa that fits is the whole part and the fraction that are scanned. -/
theorem firstFit_mantissa (cs : List Char) :
    mantissaPattern.firstFit cs =
      let fraction := Numeral.scanFraction (leadingDigits cs) (afterDigits cs)
      if leadingDigits cs = [] ∧ fraction.1 = none then none
      else some (leadingDigits cs ++ Numeral.fractionSpelling fraction.1, fraction.2) := by
  by_cases hpoint : ∃ rest, afterDigits cs = '.' :: rest
  · obtain ⟨rest, hrest⟩ := hpoint
    by_cases hwhole : leadingDigits cs = []
    · -- the text starts with the point
      have hcs : cs = '.' :: rest := by
        have happ : leadingDigits cs ++ afterDigits cs = cs := List.takeWhile_append_dropWhile
        rw [← happ, hwhole, hrest, List.nil_append]
      subst hcs
      rw [firstFit_mantissa_point, hwhole, hrest]
      by_cases hdigits : leadingDigits rest = []
      · simp only [Numeral.scanFraction, hdigits, and_self, if_true]
      · simp only [Numeral.scanFraction, hdigits, and_false, if_false, Numeral.fractionSpelling,
          reduceCtorEq, List.nil_append]
    · rw [firstFit_mantissa_of_digits hwhole hrest, hrest]
      simp only [Numeral.scanFraction, hwhole, false_and, if_false, Numeral.fractionSpelling]
  · have hne : ∀ c ∈ (afterDigits cs).head?, c ≠ '.' := by
      rintro c hc rfl
      obtain ⟨rest, hrest⟩ := List.head?_eq_some_iff.1 hc
      exact hpoint ⟨rest, hrest⟩
    have hscan : Numeral.scanFraction (leadingDigits cs) (afterDigits cs)
        = (none, afterDigits cs) := by
      unfold Numeral.scanFraction
      split
      · next rest heq => exact absurd ⟨rest, heq⟩ hpoint
      · rfl
    rw [firstFit_mantissa_of_ne_point hne, hscan]
    by_cases hwhole : leadingDigits cs = []
    · simp only [hwhole, and_self, if_true]
      exact firstFit_eq_none_iff.2 (fits_many1_eq_nil hwhole)
    · simp only [hwhole, false_and, if_false, Numeral.fractionSpelling, List.append_nil]
      exact firstFit_many1 hwhole

/-- A sign is scanned, or the text does not start with one. -/
theorem scanSign_cases (cs : List Char) :
    (∃ c rest, cs = c :: rest ∧ isSign c = true ∧ c.isDigit = false ∧
      Exponent.scanSign cs = (some c, rest)) ∨
    (∀ c ∈ cs.head?, isSign c = false) ∧ Exponent.scanSign cs = (none, cs) := by
  unfold Exponent.scanSign
  split
  · exact Or.inl ⟨_, _, rfl, rfl, rfl, rfl⟩
  · exact Or.inl ⟨_, _, rfl, rfl, rfl, rfl⟩
  · next hplus hminus =>
    refine Or.inr ⟨fun c hc => ?_, rfl⟩
    obtain ⟨rest, rfl⟩ := List.head?_eq_some_iff.1 hc
    simp only [isSign, Bool.or_eq_false_iff, beq_eq_false_iff_ne]
    exact ⟨fun h => hminus rest (h ▸ rfl), fun h => hplus rest (h ▸ rfl)⟩

/-- The first sign and digits that fit are those that are scanned. -/
theorem firstFit_signed (cs : List Char) :
    signedPattern.firstFit cs =
      let signed := Exponent.scanSign cs
      if leadingDigits signed.2 = [] then none
      else some (signed.1.toList ++ leadingDigits signed.2, afterDigits signed.2) := by
  rcases scanSign_cases cs with ⟨c, rest, rfl, hsign, hc, hscan⟩ | ⟨hne, hscan⟩
  · have hfits : (opt (one isSign)).fits (c :: rest) = [([c], rest), ([], c :: rest)] := by
      rw [opt, fits, fits_one_cons hsign, fits, List.singleton_append]
    rw [hscan]
    refine firstFit_seq_many1 (by rw [firstFit, hfits]; rfl) fun hdigits fit hfit => ?_
    rw [hfits, List.mem_cons, List.mem_singleton] at hfit
    rcases hfit with rfl | rfl
    · exact hdigits
    · -- if the sign is not taken, it stands where a digit has to
      exact List.takeWhile_cons_of_neg (by simp [hc])
  · have hfits : (opt (one isSign)).fits cs = [([], cs)] := by
      rw [opt, fits, fits_one_eq_nil hne, fits, List.nil_append]
    rw [hscan]
    refine firstFit_seq_many1 (by rw [firstFit, hfits]; rfl) fun hdigits fit hfit => ?_
    rw [hfits, List.mem_singleton] at hfit
    rw [hfit, hdigits]

/-- The marks of exponents, by their cases. -/
theorem isMark_iff {c : Char} : isMark c = true ↔ c = 'e' ∨ c = 'E' := by
  simp only [isMark, Bool.or_eq_true, beq_iff_eq]

/-- The first exponent part that fits is the one that is scanned. -/
theorem firstFit_exponent (cs : List Char) : exponentPattern.firstFit cs =
    some (Exponent.spelling (Exponent.scan cs).1, (Exponent.scan cs).2) := by
  have hempty : (empty : Pattern).firstFit cs = some ([], cs) := rfl
  rw [exponentPattern, opt, firstFit_either, hempty]
  cases cs with
  | nil => rfl
  | cons c rest =>
    by_cases hmark : isMark c = true
    · have hsigned := firstFit_signed rest
      simp only [Exponent.scan, isMark_iff.1 hmark, if_true]
      cases hdigits : leadingDigits (Exponent.scanSign rest).2 with
      | nil =>
        -- A mark without digits is not taken, as in `1e` or `1e+`.
        simp only [hdigits, if_true] at hsigned
        have hnone : (seq (one isMark) signedPattern).fits (c :: rest) = [] :=
          (fits_one_seq_eq_nil_iff hmark).2 (firstFit_eq_none_iff.1 hsigned)
        rw [firstFit_eq_none_iff.2 hnone, Option.none_or]
        rfl
      | cons d ds =>
        -- With digits the longer way to fit comes first.
        simp only [hdigits, reduceCtorEq, if_false] at hsigned
        rw [firstFit_seq (firstFit_one_cons hmark) hsigned, Option.some_or]
        rfl
    · have hnone : (seq (one isMark) signedPattern).fits (c :: rest) = [] := by
        refine fits_seq_of_eq_nil (fits_one_eq_nil ?_)
        rintro d ⟨⟩
        exact eq_false_of_ne_true hmark
      rw [firstFit_eq_none_iff.2 hnone, Option.none_or]
      simp only [Exponent.scan, mt isMark_iff.2 hmark, if_false, Exponent.spelling]

/-- **The first numeral that fits is the one that is scanned.** -/
theorem firstFit_numeral (cs : List Char) :
    numeralPattern.firstFit cs = (Numeral.scan cs).map fun fit => (fit.1.spelling, fit.2) := by
  have hmantissa := firstFit_mantissa cs
  simp only [Numeral.scan]
  by_cases h : leadingDigits cs = [] ∧
      (Numeral.scanFraction (leadingDigits cs) (afterDigits cs)).1 = none
  · rw [if_pos h] at hmantissa ⊢
    exact firstFit_eq_none_iff.2 (fits_seq_of_eq_nil (firstFit_eq_none_iff.1 hmantissa))
  · rw [if_neg h] at hmantissa ⊢
    exact firstFit_seq hmantissa (firstFit_exponent _)

/-! ### Lexemes -/

/-- The parentheses. -/
def isParenthesis (c : Char) : Bool := c == '(' || c == ')'

/-- The characters of the operators. -/
def isOperator (c : Char) : Bool := c == '-' || c == '+' || c == '*' || c == '/'

/-- The lexeme that is made of an operator's character. -/
def Lexeme.ofSymbol (found : List Char) : Lexeme :=
  match found.head?.bind Operator.ofSymbol? with
  | some o => .op o
  | none => .invalid found

/-- The alternatives of the pattern of all lexemes, in order, with the lexemes that are made of what
    they fit. -/
def tokenAlternatives : List (Pattern × (List Char → Lexeme)) :=
  [(.one isParenthesis, fun found => if found = ['('] then .leftParen else .rightParen),
    (.one isOperator, Lexeme.ofSymbol),
    (namePattern, .name),
    (numeralPattern, .number)]

/-- The lexeme at the start of a text by the pattern of all lexemes.  Where it does not fit, a
    character is taken with all that follow it up to the next separator. -/
def Lexeme.fitted (cs : List Char) : Lexeme :=
  ((tokenAlternatives.findSome? fun alternative =>
      (alternative.1.firstFit cs).map fun fit => alternative.2 fit.1).getD
    (.invalid (cs.take 1 ++ (cs.drop 1).takeWhile (!isSeparator ·))))

/-- A character that stands for no operator is not one of their characters. -/
theorem isOperator_eq_false {c : Char} (h : Operator.ofSymbol? c = none) :
    isOperator c = false := by
  cases hc : isOperator c with
  | false => rfl
  | true =>
    simp only [isOperator, Bool.or_eq_true, beq_iff_eq] at hc
    rcases hc with ((rfl | rfl) | rfl) | rfl <;> cases h

/-- **The first lexeme of a text is what the pattern of all lexemes takes.** -/
theorem Lexeme.fitted_cons (c : Char) (cs : List Char) : fitted (c :: cs) = (first c cs).1 := by
  simp only [fitted, tokenAlternatives, List.findSome?_cons, List.findSome?_nil, firstFit_name,
    firstFit_numeral]
  by_cases hopen : c = '('
  · subst hopen
    rfl
  by_cases hclose : c = ')'
  · subst hclose
    rfl
  cases hop : Operator.ofSymbol? c with
  | some o =>
    rw [Operator.eq_symbol_of_ofSymbol? hop]
    cases o <;> rfl
  | none =>
    have hparen : isParenthesis c = false := by
      simp only [isParenthesis, Bool.or_eq_false_iff, beq_eq_false_iff_ne]
      exact ⟨hopen, hclose⟩
    -- Neither symbol fits, so the alternatives left are name and numeral, as in `first`.
    rw [firstFit_one_eq_none hparen, firstFit_one_eq_none (isOperator_eq_false hop)]
    simp only [first, hopen, hclose, if_false, hop]
    cases scanName (c :: cs) with
    | some found => rfl
    | none => cases Numeral.scan (c :: cs) <;> rfl

end LiveSheet
