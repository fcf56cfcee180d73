namespace LiveSheet

/-!
# JSON strings

* `Json.quote` — the written form of a text: quotes, backslashes and the controls below the space
  are escaped, all else stands as it is.
* `Json.scanString` — the pieces of a written string, up to its closing quote.
* `Json.joinPieces` — the text that the pieces make up.  An escape gives a 16-bit unit; a character
  beyond 16 bits takes two, and a unit of such a pair that stands alone gives no text.
-/

namespace Json

/-! ### Writing -/

/-- The written form of a character inside a string. -/
def escaped (c : Char) : List Char :=
  if c = '"' then ['\\', '"']
  else if c = '\\' then ['\\', '\\']
  else if c = '\x08' then ['\\', 'b']
  else if c = '\x09' then ['\\', 't']
  else if c = '\x0a' then ['\\', 'n']
  else if c = '\x0c' then ['\\', 'f']
  else if c = '\x0d' then ['\\', 'r']
  else if c.toNat < 0x20 then
    ['\\', 'u', '0', '0', Nat.digitChar (c.toNat / 16), Nat.digitChar (c.toNat % 16)]
  else [c]

/-- The written form of a text, with its quotes. -/
def quote (s : String) : List Char := '"' :: (s.toList.flatMap escaped ++ ['"'])

/-! ### Reading -/

/-- A piece of a written string: a character, or a 16-bit unit given by its number. -/
inductive Piece where
  | char (c : Char)
  | unit (n : Nat)
deriving DecidableEq, Repr

/-- The value of a hexadecimal digit. -/
def hexValue? (c : Char) : Option Nat :=
  if '0' ≤ c ∧ c ≤ '9' then some (c.toNat - '0'.toNat)
  else if 'a' ≤ c ∧ c ≤ 'f' then some (c.toNat - 'a'.toNat + 10)
  else if 'A' ≤ c ∧ c ≤ 'F' then some (c.toNat - 'A'.toNat + 10)
  else none

/-- The 16-bit unit that four hexadecimal digits stand for. -/
def unit? (a b c d : Char) : Option Nat :=
  match hexValue? a, hexValue? b, hexValue? c, hexValue? d with
  | some a, some b, some c, some d => some (((a * 16 + b) * 16 + c) * 16 + d)
  | _, _, _, _ => none

/-- The character that a backslash and one character stand for. -/
def shortEscape? (c : Char) : Option Char :=
  if c = '"' then some '"'
  else if c = '\\' then some '\\'
  else if c = '/' then some '/'
  else if c = 'b' then some '\x08'
  else if c = 'f' then some '\x0c'
  else if c = 'n' then some '\x0a'
  else if c = 'r' then some '\x0d'
  else if c = 't' then some '\x09'
  else none

/-- Scans a string from after its opening quote, with the pieces found so far, last one first.  With
    the pieces comes what follows the closing quote. -/
def scanString (found : List Piece) : List Char → Option (List Piece × List Char)
  | [] => none
  | '"' :: rest => some (found.reverse, rest)
  | '\\' :: 'u' :: a :: b :: c :: d :: rest =>
    match unit? a b c d with
    | some n => scanString (.unit n :: found) rest
    | none => none
  | '\\' :: e :: rest =>
    match shortEscape? e with
    | some c => scanString (.char c :: found) rest
    | none => none
  | c :: rest =>
    if c = '\\' ∨ c.toNat < 0x20 then none else scanString (.char c :: found) rest

/-- What follows a string is shorter than the text it was scanned from. -/
theorem scanString_length_lt {found pieces : List Piece} {cs rest : List Char}
    (h : scanString found cs = some (pieces, rest)) : rest.length < cs.length := by
  -- by the cases of the scanner: the closing quote ends it, an escape or a character goes on
  fun_induction scanString found cs with
  | case1 => cases h
  | case2 => cases h; exact Nat.lt_succ_self _
  | case3 _ _ _ _ _ _ _ _ ih =>
    have := ih h
    simp only [List.length_cons]
    omega
  | case4 => cases h
  | case5 _ _ _ _ _ _ ih =>
    have := ih h
    simp only [List.length_cons]
    omega
  | case6 => cases h
  | case7 => cases h
  | case8 _ _ _ _ _ _ _ ih =>
    have := ih h
    simp only [List.length_cons]
    omega

/-- Whether a unit is the first of a pair. -/
def isLeading (n : Nat) : Bool := decide (0xd800 ≤ n) && decide (n < 0xdc00)

/-- Whether a unit is the second of a pair. -/
def isTrailing (n : Nat) : Bool := decide (0xdc00 ≤ n) && decide (n < 0xe000)

/-- The text that pieces make up, after the characters found so far, last one first.  A unit of a
    pair that stands alone gives no text. -/
def joinPieces (found : List Char) : List Piece → Option (List Char)
  | [] => some found.reverse
  | .char c :: rest => joinPieces (c :: found) rest
  | .unit n :: rest =>
    if isTrailing n then none
    else if isLeading n then
      match rest with
      | .unit m :: rest =>
        if isTrailing m then
          joinPieces (Char.ofNat (0x10000 + (n - 0xd800) * 0x400 + (m - 0xdc00)) :: found) rest
        else none
      | _ => none
    else joinPieces (Char.ofNat n :: found) rest

end Json

end LiveSheet
