import LiveSheet.Decimal.Numeral
import LiveSheet.Formula.Operator
import LiveSheet.Text.Blank

namespace LiveSheet

/-!
# Lexemes

The text of a formula is cut into lexemes.  Blank characters separate lexemes and are dropped.  At
each place the first of these that fits is taken: a parenthesis, an operator, a name (letters then
digits), a numeral, and else an invalid run, which goes on to the next separator.

* `Lexeme` — a lexeme, with its text where the kind does not fix it.
* `scanName` — the longest name at the start of a text.
* `Lexeme.first` — the lexeme at the start of a text, with what follows it.
* `lexemes` — all lexemes of a text.
* `Lexeme.first_append` — cutting a lexeme off loses nothing.
-/

/-- A piece of a formula's text. -/
inductive Lexeme where
  | leftParen
  | rightParen
  | op (o : Operator)
  | name (chars : List Char)
  | number (chars : List Char)
  | invalid (chars : List Char)
deriving DecidableEq, Repr

/-- The characters of a lexeme. -/
def Lexeme.chars : Lexeme → List Char
  | .leftParen => ['(']
  | .rightParen => [')']
  | .op o => [o.symbol]
  | .name chars => chars
  | .number chars => chars
  | .invalid chars => chars

/-- The text of a lexeme. -/
def Lexeme.text (l : Lexeme) : String := String.ofList l.chars

/-- Whether a character ends an invalid run. -/
def isSeparator (c : Char) : Bool :=
  isBlank c || c == '(' || c == ')' || (Operator.ofSymbol? c).isSome

/-- The longest name at the start of a text: ASCII letters, then ASCII digits, some of each. -/
def scanName (cs : List Char) : Option (List Char × List Char) :=
  let letters := cs.takeWhile Char.isAlpha
  let rest := cs.dropWhile Char.isAlpha
  if letters = [] ∨ leadingDigits rest = [] then none
  else some (letters ++ leadingDigits rest, afterDigits rest)

/-- The lexeme at the start of the text `c :: cs`, with what follows it. -/
def Lexeme.first (c : Char) (cs : List Char) : Lexeme × List Char :=
  if c = '(' then (.leftParen, cs)
  else if c = ')' then (.rightParen, cs)
  else match Operator.ofSymbol? c with
    | some o => (.op o, cs)
    | none =>
      match scanName (c :: cs) with
      | some (found, rest) => (.name found, rest)
      | none =>
        match Numeral.scan (c :: cs) with
        | some (n, rest) => (.number n.spelling, rest)
        | none =>
          (.invalid (c :: cs.takeWhile (!isSeparator ·)), cs.dropWhile (!isSeparator ·))

/-! ### A lexeme and what follows it make up the text -/

/-- A name that is found, with what follows it, is the text again. -/
theorem scanName_append {cs name rest : List Char} (h : scanName cs = some (name, rest)) :
    name ++ rest = cs := by
  simp only [scanName] at h
  split at h
  · exact absurd h (by simp)
  · simp only [Option.some.injEq, Prod.mk.injEq] at h
    obtain ⟨rfl, rfl⟩ := h
    rw [List.append_assoc, List.takeWhile_append_dropWhile, List.takeWhile_append_dropWhile]

/-- No name is empty, so a lexeme that is a name takes at least one character. -/
theorem scanName_ne_nil {cs name rest : List Char} (h : scanName cs = some (name, rest)) :
    name ≠ [] := by
  simp only [scanName] at h
  split at h
  · exact absurd h (by simp)
  · next hne =>
    simp only [Option.some.injEq, Prod.mk.injEq] at h
    obtain ⟨rfl, rfl⟩ := h
    intro hnil
    exact hne (Or.inl (List.append_eq_nil_iff.1 hnil).1)

/-- Cutting off the first lexeme loses nothing. -/
theorem Lexeme.first_append (c : Char) (cs : List Char) :
    (first c cs).1.chars ++ (first c cs).2 = c :: cs := by
  unfold first
  split
  · next h => simp only [chars, h, List.cons_append, List.nil_append]
  split
  · next h => simp only [chars, h, List.cons_append, List.nil_append]
  split
  · next h =>
    simp only [chars, Operator.eq_symbol_of_ofSymbol? h, List.cons_append, List.nil_append]
  split
  · next h => exact scanName_append h
  split
  · next h => exact Numeral.spelling_append_of_scan h
  · simp only [chars, List.cons_append, List.takeWhile_append_dropWhile]

/-- No lexeme is empty. -/
theorem Lexeme.first_chars_ne_nil (c : Char) (cs : List Char) : (first c cs).1.chars ≠ [] := by
  unfold first
  split
  · exact List.cons_ne_nil _ _
  split
  · exact List.cons_ne_nil _ _
  split
  · exact List.cons_ne_nil _ _
  split
  · next h => exact scanName_ne_nil h
  split
  · next h => exact Numeral.spelling_ne_nil_of_scan h
  · exact List.cons_ne_nil _ _

/-- What follows the first lexeme is shorter than the text. -/
theorem Lexeme.first_length_lt (c : Char) (cs : List Char) :
    (first c cs).2.length < (c :: cs).length := by
  have happ := congrArg List.length (first_append c cs)
  have hpos := List.length_pos_iff.2 (first_chars_ne_nil c cs)
  rw [List.length_append] at happ
  omega

/-! ### All lexemes of a text -/

/-- The lexemes of a text, in order. -/
def lexemes (cs : List Char) : List Lexeme :=
  match _h : trimLeft cs with
  | [] => []
  | c :: rest => (Lexeme.first c rest).1 :: lexemes (Lexeme.first c rest).2
termination_by cs.length
decreasing_by
  have hlt := Lexeme.first_length_lt c rest
  have hle := trimLeft_length_le cs
  rw [_h] at hle
  omega

end LiveSheet
