import LiveSheet.Json.Quoting

namespace LiveSheet

/-!
# TOML values and strings

* `Toml` — a value.  Numbers and dates are kept as they are written.
* `Toml.scanString` — a string of any of the four kinds.
* Every scanner takes a text and gives what it found with the rest of the text, or nothing if the
  text is not well formed.
-/

/-- A TOML value.  A table has an entry for each key; `dotted` marks a table that was made by keys
    with dots, and can be extended by such keys. -/
inductive Toml where
  | bool (b : Bool)
  | string (text : String)
  | integer (value : Int)
  | float (chars : List Char)
  | moment (chars : List Char)
  | array (items : List Toml)
  | table (dotted : Bool) (entries : List (String × Toml))

namespace Toml

/-- Whether a character is white space within a line. -/
def isSpace (c : Char) : Bool := c == ' ' || c == '\t'

/-- A text without the white space it starts with. -/
def skipSpace (cs : List Char) : List Char := cs.dropWhile isSpace

/-- Whether a character may stand as it is in a comment or a literal string. -/
def isPlain (c : Char) : Bool := c == '\t' || (decide (' ' ≤ c) && c != '\x7f')

/-- Takes a line end off, if the text starts with one. -/
def lineEnd? : List Char → Option (List Char)
  | '\n' :: rest => some rest
  | '\r' :: '\n' :: rest => some rest
  | _ => none

/-- A text without the line end it starts with. -/
def skipLineEnd (cs : List Char) : List Char := (lineEnd? cs).getD cs

/-- A text without the white space and line ends it starts with. -/
def skipBlankLines : List Char → List Char
  | '\r' :: '\n' :: rest => skipBlankLines rest
  | c :: rest => if c = '\n' ∨ isSpace c then skipBlankLines rest else c :: rest
  | [] => []

/-- Skipping blank lines makes no text longer. -/
theorem skipBlankLines_length_le (cs : List Char) : (skipBlankLines cs).length ≤ cs.length := by
  fun_induction skipBlankLines cs with
  | case1 rest ih =>
    simp only [List.length_cons]
    omega
  | case2 c rest _ _ ih =>
    simp only [List.length_cons]
    omega
  | case3 => exact Nat.le_refl _
  | case4 => exact Nat.le_refl _

/-- A line end takes at least one character. -/
theorem lineEnd_length_lt {cs rest : List Char} (h : lineEnd? cs = some rest) :
    rest.length < cs.length := by
  unfold lineEnd? at h
  split at h
  · cases h
    exact Nat.lt_succ_self _
  · cases h
    simp only [List.length_cons]
    omega
  · cases h

/-! ### Escapes -/

/-- The character with a number, if there is one. -/
def char? (n : Nat) : Option Char := if n.isValidChar then some (Char.ofNat n) else none

/-- The character that four hexadecimal digits stand for. -/
def char4? (a b c d : Char) : Option Char := (Json.unit? a b c d).bind char?

/-- The character that eight hexadecimal digits stand for. -/
def char8? (a b c d e f g h : Char) : Option Char :=
  match Json.unit? a b c d, Json.unit? e f g h with
  | some high, some low => char? (high * 0x10000 + low)
  | _, _ => none

/-- The character that a backslash and one character stand for. -/
def shortEscape? (c : Char) : Option Char := if c = '/' then none else Json.shortEscape? c

/-- The character after a backslash, with the rest of the text. -/
def scanEscape : List Char → Option (Char × List Char)
  | 'u' :: a :: b :: c :: d :: rest => (char4? a b c d).map (·, rest)
  | 'U' :: a :: b :: c :: d :: e :: f :: g :: h :: rest => (char8? a b c d e f g h).map (·, rest)
  | e :: rest => (shortEscape? e).map (·, rest)
  | [] => none

/-- An escape takes at least one character after its backslash. -/
theorem scanEscape_length_lt {cs rest : List Char} {c : Char}
    (h : scanEscape cs = some (c, rest)) : rest.length < cs.length := by
  unfold scanEscape at h
  split at h
  · obtain ⟨_, _, heq⟩ := Option.map_eq_some_iff.1 h
    cases heq
    simp only [List.length_cons]
    omega
  · obtain ⟨_, _, heq⟩ := Option.map_eq_some_iff.1 h
    cases heq
    simp only [List.length_cons]
    omega
  · obtain ⟨_, _, heq⟩ := Option.map_eq_some_iff.1 h
    cases heq
    exact Nat.lt_succ_self _
  · cases h

/-! ### Strings -/

/-- A string found so far, last character first, with the rest of the text. -/
def found (chars rest : List Char) : Option (String × List Char) :=
  some (String.ofList chars.reverse, rest)

/-- A string in double quotes, from after the opening quote. -/
def scanBasic (chars : List Char) (cs : List Char) : Option (String × List Char) :=
  match cs with
  | [] => none
  | '"' :: rest => found chars rest
  | '\\' :: rest =>
    match _h : scanEscape rest with
    | some (c, rest) => scanBasic (c :: chars) rest
    | none => none
  | c :: rest => if isPlain c then scanBasic (c :: chars) rest else none
termination_by cs.length
decreasing_by
  · have := scanEscape_length_lt _h
    simp only [List.length_cons]
    omega
  · exact Nat.lt_succ_self _

/-- A string in single quotes, from after the opening quote. -/
def scanLiteral (chars : List Char) : List Char → Option (String × List Char)
  | [] => none
  | '\'' :: rest => found chars rest
  | c :: rest => if isPlain c then scanLiteral (c :: chars) rest else none

/-- The rest of a text after a backslash at the end of a line, white space and line ends skipped. -/
def continued? (cs : List Char) : Option (List Char) :=
  (lineEnd? (skipSpace cs)).map skipBlankLines

/-- A line that is continued takes at least its line end. -/
theorem continued_length_lt {cs rest : List Char} (h : continued? cs = some rest) :
    rest.length < cs.length := by
  obtain ⟨after, hend, rfl⟩ := Option.map_eq_some_iff.1 h
  have h1 := lineEnd_length_lt hend
  have h2 := skipBlankLines_length_le after
  have h3 : (skipSpace cs).length ≤ cs.length := (List.dropWhile_sublist _).length_le
  omega

/-- A string in three double quotes, from after the opening quotes.  Up to two quotes may stand
    right before the closing ones. -/
def scanLongBasic (chars : List Char) (cs : List Char) : Option (String × List Char) :=
  match cs with
  | [] => none
  | '"' :: '"' :: '"' :: '"' :: '"' :: rest => found ('"' :: '"' :: chars) rest
  | '"' :: '"' :: '"' :: '"' :: rest => found ('"' :: chars) rest
  | '"' :: '"' :: '"' :: rest => found chars rest
  | '\r' :: '\n' :: rest => scanLongBasic ('\n' :: chars) rest
  | '\\' :: rest =>
    match _hc : continued? rest with
    | some rest => scanLongBasic chars rest
    | none =>
      match _h : scanEscape rest with
      | some (c, rest) => scanLongBasic (c :: chars) rest
      | none => none
  | c :: rest => if c = '\n' ∨ isPlain c then scanLongBasic (c :: chars) rest else none
termination_by cs.length
decreasing_by
  · simp only [List.length_cons]
    omega
  · have := continued_length_lt _hc
    simp only [List.length_cons]
    omega
  · have := scanEscape_length_lt _h
    simp only [List.length_cons]
    omega
  · exact Nat.lt_succ_self _

/-- A string in three single quotes, from after the opening quotes. -/
def scanLongLiteral (chars : List Char) : List Char → Option (String × List Char)
  | [] => none
  | '\'' :: '\'' :: '\'' :: '\'' :: '\'' :: rest => found ('\'' :: '\'' :: chars) rest
  | '\'' :: '\'' :: '\'' :: '\'' :: rest => found ('\'' :: chars) rest
  | '\'' :: '\'' :: '\'' :: rest => found chars rest
  | '\r' :: '\n' :: rest => scanLongLiteral ('\n' :: chars) rest
  | c :: rest => if c = '\n' ∨ isPlain c then scanLongLiteral (c :: chars) rest else none

/-- A string on one line, from its opening quote on. -/
def scanShortString : List Char → Option (String × List Char)
  | '"' :: rest => scanBasic [] rest
  | '\'' :: rest => scanLiteral [] rest
  | _ => none

/-- A string, from its opening quote on.  A line end right after three quotes does not count. -/
def scanString : List Char → Option (String × List Char)
  | '"' :: '"' :: '"' :: rest => scanLongBasic [] (skipLineEnd rest)
  | '\'' :: '\'' :: '\'' :: rest => scanLongLiteral [] (skipLineEnd rest)
  | cs => scanShortString cs

end Toml

end LiveSheet
