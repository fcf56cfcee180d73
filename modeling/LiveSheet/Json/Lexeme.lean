import LiveSheet.Decimal.Numeral
import LiveSheet.Json.Quoting

namespace LiveSheet

/-!
# JSON values and their lexemes

* `Json` — a value.  A string is `none` if it is well written but stands for no text; an object
  keeps all its members, in order, repeated names too.
* `Json.Lexeme` — punctuation, strings and atoms.
* `Json.lexemes` — the lexemes of a text; spaces, tabs and line ends separate them.
-/

/-- A JSON value.  Numbers are kept as they are written. -/
inductive Json where
  | null
  | bool (b : Bool)
  | number (chars : List Char)
  | string (text : Option String)
  | array (items : List Json)
  | object (members : List (Option String × Json))

namespace Json

/-- A piece of JSON text. -/
inductive Lexeme where
  | openArray
  | closeArray
  | openObject
  | closeObject
  | colon
  | comma
  | string (text : Option String)
  /-- A value that is neither a string nor put together from others. -/
  | atom (value : Json)

/-- Whether a character may stand between lexemes. -/
def isSpace (c : Char) : Bool := c == ' ' || c == '\t' || c == '\n' || c == '\r'

/-! ### Numbers -/

/-- The whole part of a number: a zero, or digits that start with another one. -/
def scanWhole : List Char → Option (List Char × List Char)
  | '0' :: rest => some (['0'], rest)
  | cs => if leadingDigits cs = [] then none else some (leadingDigits cs, afterDigits cs)

/-- The point and the digits after it, if both are there. -/
def scanFraction : List Char → List Char × List Char
  | '.' :: rest =>
    if leadingDigits rest = [] then ([], '.' :: rest)
    else ('.' :: leadingDigits rest, afterDigits rest)
  | cs => ([], cs)

/-- The longest number without a sign at the start of a text. -/
def scanUnsigned (cs : List Char) : Option (List Char × List Char) :=
  match scanWhole cs with
  | none => none
  | some (whole, rest) =>
    let fraction := scanFraction rest
    let exponent := Exponent.scan fraction.2
    some (whole ++ fraction.1 ++ Exponent.spelling exponent.1, exponent.2)

/-- The longest number at the start of a text. -/
def scanNumber : List Char → Option (List Char × List Char)
  | '-' :: rest => (scanUnsigned rest).map fun found => ('-' :: found.1, found.2)
  | cs => scanUnsigned cs

/-! ### Lexemes -/

/-- The word at the start of a text, if it is the given one. -/
def scanWord (word : List Char) (value : Json) (cs : List Char) : Option (Lexeme × List Char) :=
  if word.isPrefixOf cs then some (.atom value, cs.drop word.length) else none

/-- The lexeme that is a single character. -/
def punctuation? (c : Char) : Option Lexeme :=
  if c = '[' then some .openArray
  else if c = ']' then some .closeArray
  else if c = '\x7b' then some .openObject
  else if c = '\x7d' then some .closeObject
  else if c = ':' then some .colon
  else if c = ',' then some .comma
  else none

/-- The string that starts after its opening quote. -/
def scanText (cs : List Char) : Option (Lexeme × List Char) :=
  (scanString [] cs).map fun found =>
    (.string ((joinPieces [] found.1).map String.ofList), found.2)

/-- The number at the start of a text. -/
def scanAtom (cs : List Char) : Option (Lexeme × List Char) :=
  (scanNumber cs).map fun found => (.atom (.number found.1), found.2)

/-- The lexeme at the start of the text `c :: cs`, with what follows it. -/
def Lexeme.first (c : Char) (cs : List Char) : Option (Lexeme × List Char) :=
  match punctuation? c with
  | some l => some (l, cs)
  | none =>
    if c = '"' then scanText cs
    else if c = 't' then scanWord ['r', 'u', 'e'] (.bool true) cs
    else if c = 'f' then scanWord ['a', 'l', 's', 'e'] (.bool false) cs
    else if c = 'n' then scanWord ['u', 'l', 'l'] .null cs
    else scanAtom (c :: cs)

/-! ### What follows a lexeme is shorter -/

/-- An exponent part may be missing, so what follows it may be the whole text. -/
theorem exponentScan_length_le (cs : List Char) : (Exponent.scan cs).2.length ≤ cs.length := by
  have h := congrArg List.length (Exponent.spelling_scan_append cs)
  rw [List.length_append] at h
  omega

/-- What follows the leading digits is no longer than the text. -/
theorem afterDigits_length_le (cs : List Char) : (afterDigits cs).length ≤ cs.length :=
  (List.dropWhile_sublist _).length_le

/-- What follows the leading digits is shorter than the text if there are any. -/
theorem afterDigits_length_lt {cs : List Char} (h : leadingDigits cs ≠ []) :
    (afterDigits cs).length < cs.length := by
  have hsum : (leadingDigits cs).length + (afterDigits cs).length = cs.length := by
    rw [← List.length_append, List.takeWhile_append_dropWhile]
  have hpos := List.length_pos_iff.2 h
  omega

/-- The whole part of a number takes at least one digit. -/
theorem scanWhole_length_lt {cs whole rest : List Char} (h : scanWhole cs = some (whole, rest)) :
    rest.length < cs.length := by
  unfold scanWhole at h
  split at h
  · cases h
    exact Nat.lt_succ_self _
  · split at h
    · cases h
    · next hne =>
      cases h
      exact afterDigits_length_lt hne

/-- A fraction may be missing, so what follows it may be the whole text. -/
theorem scanFraction_length_le (cs : List Char) : (scanFraction cs).2.length ≤ cs.length := by
  unfold scanFraction
  split
  · split
    · exact Nat.le_refl _
    · exact Nat.le_succ_of_le (afterDigits_length_le _)
  · exact Nat.le_refl _

/-- A number without a sign takes at least one character. -/
theorem scanUnsigned_length_lt {cs chars rest : List Char}
    (h : scanUnsigned cs = some (chars, rest)) : rest.length < cs.length := by
  unfold scanUnsigned at h
  split at h
  · cases h
  · next whole after hw =>
    cases h
    have h1 := scanWhole_length_lt hw
    have h2 := scanFraction_length_le after
    have h3 := exponentScan_length_le (scanFraction after).2
    omega

/-- A number takes at least one character. -/
theorem scanNumber_length_lt {cs chars rest : List Char}
    (h : scanNumber cs = some (chars, rest)) : rest.length < cs.length := by
  unfold scanNumber at h
  split at h
  · obtain ⟨found, hf, heq⟩ := Option.map_eq_some_iff.1 h
    cases heq
    have := scanUnsigned_length_lt hf
    simp only [List.length_cons]
    omega
  · exact scanUnsigned_length_lt h

/-- What follows a word is no longer than the text after its first letter. -/
theorem scanWord_length_le {word : List Char} {value : Json} {cs rest : List Char} {l : Lexeme}
    (h : scanWord word value cs = some (l, rest)) : rest.length ≤ cs.length := by
  unfold scanWord at h
  split at h
  · cases h
    rw [List.length_drop]
    omega
  · cases h

/-- **Every lexeme takes at least one character**, so cutting a text into lexemes ends. -/
theorem Lexeme.first_length_lt {c : Char} {cs rest : List Char} {l : Lexeme}
    (h : first c cs = some (l, rest)) : rest.length < (c :: cs).length := by
  -- a punctuation mark, a string, one of the three words, or a number
  unfold first at h
  split at h
  · cases h
    exact Nat.lt_succ_self _
  split at h
  · obtain ⟨found, hf, heq⟩ := Option.map_eq_some_iff.1 h
    cases heq
    exact Nat.lt_succ_of_lt (scanString_length_lt hf)
  split at h
  · exact Nat.lt_succ_of_le (scanWord_length_le h)
  split at h
  · exact Nat.lt_succ_of_le (scanWord_length_le h)
  split at h
  · exact Nat.lt_succ_of_le (scanWord_length_le h)
  · obtain ⟨found, hf, heq⟩ := Option.map_eq_some_iff.1 h
    cases heq
    exact scanNumber_length_lt hf

/-! ### All lexemes of a text -/

/-- The lexemes of a text, after those found so far, last one first. -/
def lexemesFrom (found : List Lexeme) (cs : List Char) : Option (List Lexeme) :=
  match _h : cs.dropWhile isSpace with
  | [] => some found.reverse
  | c :: rest =>
    match _hf : Lexeme.first c rest with
    | some (l, rest) => lexemesFrom (l :: found) rest
    | none => none
termination_by cs.length
decreasing_by
  have hlt := Lexeme.first_length_lt _hf
  have hle := (List.dropWhile_sublist (l := cs) isSpace).length_le
  rw [_h] at hle
  omega

/-- The lexemes of a text, if the text is made up of lexemes. -/
def lexemes (cs : List Char) : Option (List Lexeme) := lexemesFrom [] cs

end Json

end LiveSheet
