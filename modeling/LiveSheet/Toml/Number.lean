import LiveSheet.Decimal.Reading
import LiveSheet.Toml.Value

namespace LiveSheet

/-!
# TOML numbers and dates

Digits may be separated by single underscores.  Whole numbers have to fit in 64 bits, and floats may
not be beyond the largest double.  Dates and times of day have to exist.

* `Toml.scanNumber` — an integer or a float.
* `Toml.scanMoment` — a date, a time, or both with or without an offset.
-/

namespace Toml

/-! ### Digits -/

/-- More digits, which may have one underscore before each, after those found so far, last one
    first.  An underscore without a digit after it is an error. -/
def moreDigits (isDigit : Char → Bool) (found : List Char) :
    List Char → Option (List Char × List Char)
  | '_' :: c :: rest => if isDigit c then moreDigits isDigit (c :: found) rest else none
  | c :: rest =>
    if c = '_' then none
    else if isDigit c then moreDigits isDigit (c :: found) rest
    else some (found.reverse, c :: rest)
  | [] => some (found.reverse, [])

/-- Digits, at least one, with underscores between them. -/
def scanDigits (isDigit : Char → Bool) : List Char → Option (List Char × List Char)
  | c :: rest => if isDigit c then moreDigits isDigit [c] rest else none
  | [] => none

/-- Takes a sign off. -/
def scanSign : List Char → List Char × List Char
  | '+' :: rest => ([], rest)
  | '-' :: rest => (['-'], rest)
  | cs => ([], cs)

/-- A decimal whole number without a sign; a zero stands alone. -/
def scanWhole : List Char → Option (List Char × List Char)
  | '0' :: rest => some (['0'], rest)
  | cs => scanDigits Char.isDigit cs

/-! ### Floats -/

/-- An exponent, if the text starts with its mark. -/
def scanExponent : List Char → Option (List Char × List Char)
  | c :: rest =>
    if c = 'e' ∨ c = 'E' then
      let signed := scanSign rest
      (scanDigits Char.isDigit signed.2).map fun digits =>
        ('e' :: (signed.1 ++ digits.1), digits.2)
    else some ([], c :: rest)
  | [] => some ([], [])

/-- A point with digits, if the text starts with a point. -/
def scanFraction : List Char → Option (List Char × List Char)
  | '.' :: rest => (scanDigits Char.isDigit rest).map fun digits => ('.' :: digits.1, digits.2)
  | cs => some ([], cs)

/-- Whether the text of a float stands for a double that is not above the largest one. -/
def isFloat (chars : List Char) : Bool :=
  match Double.read chars with
  | some (.infinite false) => false
  | some _ => true
  | none => false

/-- Whether a whole number fits in 64 bits with a sign: from `-2 ^ 63` to below `2 ^ 63`. -/
def fits64 (n : Int) : Bool := decide (-0x8000000000000000 ≤ n) && decide (n < 0x8000000000000000)

/-- A whole number as a value. -/
def integer? (n : Int) : Option Toml := if fits64 n then some (.integer n) else none

/-- The words for values that are not finite. -/
def scanSpecial (sign : List Char) : List Char → Option (Toml × List Char)
  | 'i' :: 'n' :: 'f' :: rest => some (.float (sign ++ ['i', 'n', 'f']), rest)
  | 'n' :: 'a' :: 'n' :: rest => some (.float (sign ++ ['n', 'a', 'n']), rest)
  | _ => none

/-- A decimal number: a float if there is a point or an exponent, and else an integer. -/
def scanDecimal (cs : List Char) : Option (Toml × List Char) := do
  let signed := scanSign cs
  let whole ← scanWhole signed.2
  let fraction ← scanFraction whole.2
  let exponent ← scanExponent fraction.2
  if fraction.1 = [] ∧ exponent.1 = [] then
    let magnitude : Int := Nat.ofDigitChars 10 whole.1 0
    let value ← integer? (if signed.1 = [] then magnitude else -magnitude)
    some (value, whole.2)
  else
    let chars := signed.1 ++ whole.1 ++ fraction.1 ++ exponent.1
    if isFloat chars then some (.float chars, exponent.2) else none

/-- A whole number in a base that is a power of two, from after its mark. -/
def scanBase (base : Nat) (cs : List Char) : Option (Toml × List Char) := do
  let isDigit (c : Char) : Bool := (Json.hexValue? c).any (decide <| · < base)
  let digits ← scanDigits isDigit cs
  let value ← integer? (digits.1.foldl (fun n c => base * n + (Json.hexValue? c).getD 0) 0 : Nat)
  some (value, digits.2)

/-- A number. -/
def scanNumber (cs : List Char) : Option (Toml × List Char) :=
  match cs with
  | '0' :: 'x' :: rest => scanBase 16 rest
  | '0' :: 'o' :: rest => scanBase 8 rest
  | '0' :: 'b' :: rest => scanBase 2 rest
  | cs =>
    match scanSpecial (scanSign cs).1 (scanSign cs).2 with
    | some result => some result
    | none => scanDecimal cs

/-! ### Dates and times -/

/-- The number that digits stand for, if they are digits. -/
def field? (cs : List Char) : Option Nat :=
  if cs.all Char.isDigit then some (Nat.ofDigitChars 10 cs 0) else none

/-- Two digits that stand for a number within bounds. -/
def scanField (low high : Nat) : List Char → Option (List Char)
  | a :: b :: rest =>
    match field? [a, b] with
    | some n => if low ≤ n ∧ n ≤ high then some rest else none
    | none => none
  | _ => none

/-- Takes a given character off. -/
def scanChar (c : Char) : List Char → Option (List Char)
  | d :: rest => if d = c then some rest else none
  | [] => none

/-- The number of days in a month. -/
def daysIn (year month : Nat) : Nat :=
  if month = 2 then
    if year % 4 = 0 ∧ (year % 100 ≠ 0 ∨ year % 400 = 0) then 29 else 28
  else if month = 4 ∨ month = 6 ∨ month = 9 ∨ month = 11 then 30
  else 31

/-- A date: four digits, two and two. -/
def scanDate : List Char → Option (List Char)
  | y :: y' :: y'' :: y''' :: '-' :: m :: m' :: '-' :: d :: d' :: rest => do
    let year ← field? [y, y', y'', y''']
    let month ← field? [m, m']
    let day ← field? [d, d']
    if 1 ≤ month ∧ month ≤ 12 ∧ 1 ≤ day ∧ day ≤ daysIn year month then some rest else none
  | _ => none

/-- The digits of a second after a point, if there are any. -/
def skipFraction : List Char → List Char
  | '.' :: rest => if leadingDigits rest = [] then '.' :: rest else afterDigits rest
  | cs => cs

/-- A time of day; the last minute of a day may have a leap second. -/
def scanTime (cs : List Char) : Option (List Char) := do
  let cs ← scanField 0 23 cs
  let cs ← scanChar ':' cs
  let cs ← scanField 0 59 cs
  let cs ← scanChar ':' cs
  let cs ← scanField 0 60 cs
  some (skipFraction cs)

/-- An offset from universal time, if there is one. -/
def scanOffset : List Char → Option (List Char)
  | c :: rest =>
    if c = 'Z' ∨ c = 'z' then some rest
    else if c = '+' ∨ c = '-' then do
      let cs ← scanField 0 23 rest
      let cs ← scanChar ':' cs
      scanField 0 59 cs
    else some (c :: rest)
  | [] => some []

/-- The time that may follow a date. -/
def scanTimeOfDate : List Char → Option (List Char)
  | c :: rest =>
    if c = 'T' ∨ c = 't' ∨ c = ' ' then
      match scanTime rest with
      | some cs => scanOffset cs
      | none => some (c :: rest)
    else some (c :: rest)
  | [] => some []

/-- Whether a text starts as a date does. -/
def startsDate : List Char → Bool
  | y :: y' :: y'' :: y''' :: '-' :: _ => [y, y', y'', y'''].all Char.isDigit
  | _ => false

/-- Whether a text starts as a time of day does. -/
def startsTime : List Char → Bool
  | h :: h' :: ':' :: _ => [h, h'].all Char.isDigit
  | _ => false

/-- A date, a time, or both. -/
def scanMoment (cs : List Char) : Option (Toml × List Char) := do
  let rest ← if startsDate cs then (scanDate cs).bind scanTimeOfDate else scanTime cs
  some (.moment (cs.take (cs.length - rest.length)), rest)

end Toml

end LiveSheet
