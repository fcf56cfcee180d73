namespace LiveSheet

/-!
# Decimal numerals

A numeral is digits with an optional point, then an optional exponent: `3`, `2.`, `.5`, `6.02e23`.
At least one digit stands before or after the point.  Letters and digits are ASCII.

* `Numeral.scan` — the longest numeral at the start of a text, with what follows it.
* `Numeral.spelling` — the text of a numeral.
* `Numeral.spelling_append_of_scan` — scanning loses nothing.
-/

/-- The exponent part of a numeral, as it is written. -/
structure Exponent where
  mark : Char
  sign : Option Char
  digits : List Char
deriving DecidableEq, Repr

/-- A numeral as it is written; `fraction` is present when the point is. -/
structure Numeral where
  whole : List Char
  fraction : Option (List Char)
  exponent : Option Exponent
deriving DecidableEq, Repr

/-- The leading ASCII digits of a text. -/
abbrev leadingDigits (cs : List Char) : List Char := cs.takeWhile Char.isDigit

/-- What follows the leading ASCII digits of a text. -/
abbrev afterDigits (cs : List Char) : List Char := cs.dropWhile Char.isDigit

namespace Exponent

/-- The text of an exponent part, which may be absent. -/
def spelling : Option Exponent → List Char
  | none => []
  | some e => e.mark :: (e.sign.toList ++ e.digits)

/-- The exponent's value. -/
def value (e : Exponent) : Int :=
  let magnitude : Int := Nat.ofDigitChars 10 e.digits 0
  if e.sign = some '-' then -magnitude else magnitude

/-- Takes the sign that stands before an exponent's digits, if there is one. -/
def scanSign : List Char → Option Char × List Char
  | '+' :: rest => (some '+', rest)
  | '-' :: rest => (some '-', rest)
  | rest => (none, rest)

/-- The exponent part at the start of a text.  A mark without digits is not one, and is left. -/
def scan : List Char → Option Exponent × List Char
  | [] => (none, [])
  | c :: rest =>
    if c = 'e' ∨ c = 'E' then
      let signed := scanSign rest
      match leadingDigits signed.2 with
      | [] => (none, c :: rest)
      | digits => (some ⟨c, signed.1, digits⟩, afterDigits signed.2)
    else (none, c :: rest)

end Exponent

namespace Numeral

/-- The text of a point and the digits after it, which may be absent. -/
def fractionSpelling : Option (List Char) → List Char
  | none => []
  | some digits => '.' :: digits

/-- The text of a numeral. -/
def spelling (n : Numeral) : List Char :=
  n.whole ++ fractionSpelling n.fraction ++ Exponent.spelling n.exponent

/-- All digits of a numeral but those of its exponent. -/
def digits (n : Numeral) : List Char := n.whole ++ n.fraction.getD []

/-- The digits read as one whole number. -/
def coefficient (n : Numeral) : Nat := Nat.ofDigitChars 10 n.digits 0

/-- The power of ten that scales `coefficient`. -/
def scale (n : Numeral) : Int :=
  (match n.exponent with | none => 0 | some e => e.value) - ((n.fraction.getD []).length : Int)

/-- The point and the digits after it, at the start of a text.  A point that stands alone, with no
    digit before or after it, is none. -/
def scanFraction (whole : List Char) : List Char → Option (List Char) × List Char
  | '.' :: rest =>
    if whole = [] ∧ leadingDigits rest = [] then (none, '.' :: rest)
    else (some (leadingDigits rest), afterDigits rest)
  | rest => (none, rest)

/-- The longest numeral at the start of a text, with what follows it. -/
def scan (cs : List Char) : Option (Numeral × List Char) :=
  let whole := leadingDigits cs
  let fraction := scanFraction whole (afterDigits cs)
  if whole = [] ∧ fraction.1 = none then none
  else
    let exponent := Exponent.scan fraction.2
    some (⟨whole, fraction.1, exponent.1⟩, exponent.2)

end Numeral

/-! ### Scanning loses nothing -/

/-- A sign that is found, with what follows it, is the text again. -/
theorem Exponent.scanSign_append (cs : List Char) :
    (scanSign cs).1.toList ++ (scanSign cs).2 = cs := by
  unfold scanSign
  split <;> rfl

/-- Scanning an exponent part loses no character: if none is found, nothing is taken. -/
theorem Exponent.spelling_scan_append (cs : List Char) :
    spelling (scan cs).1 ++ (scan cs).2 = cs := by
  cases cs with
  | nil => rfl
  | cons c rest =>
    by_cases hc : c = 'e' ∨ c = 'E'
    · cases hd : leadingDigits (scanSign rest).2 with
      | nil => simp only [scan, hc, if_true, hd, spelling, List.nil_append]
      | cons d ds =>
        have hds : d :: (ds ++ afterDigits (scanSign rest).2) = (scanSign rest).2 := by
          rw [← List.cons_append, ← hd, List.takeWhile_append_dropWhile]
        simp only [scan, hc, if_true, hd, spelling, List.cons_append, List.append_assoc, hds,
          scanSign_append]
    · simp only [scan, hc, if_false, spelling, List.nil_append]

/-- Scanning a fraction loses no character, whether a point is found or not. -/
theorem Numeral.fractionSpelling_scan_append (whole cs : List Char) :
    fractionSpelling (scanFraction whole cs).1 ++ (scanFraction whole cs).2 = cs := by
  unfold scanFraction
  split
  · next rest =>
    by_cases h : whole = [] ∧ leadingDigits rest = []
    · simp only [h, and_self, if_true, fractionSpelling, List.nil_append]
    · simp only [h, if_false, fractionSpelling, List.cons_append,
        List.takeWhile_append_dropWhile]
  · rfl

/-- A numeral and what follows it make up the text that was scanned. -/
theorem Numeral.spelling_append_of_scan {cs rest : List Char} {n : Numeral}
    (h : scan cs = some (n, rest)) : n.spelling ++ rest = cs := by
  simp only [scan] at h
  split at h
  · exact absurd h (by simp)
  · simp only [Option.some.injEq, Prod.mk.injEq] at h
    obtain ⟨rfl, rfl⟩ := h
    simp only [spelling, List.append_assoc]
    rw [Exponent.spelling_scan_append, fractionSpelling_scan_append,
      List.takeWhile_append_dropWhile]

/-- A numeral has at least one character. -/
theorem Numeral.spelling_ne_nil_of_scan {cs rest : List Char} {n : Numeral}
    (h : scan cs = some (n, rest)) : n.spelling ≠ [] := by
  simp only [scan] at h
  split at h
  · exact absurd h (by simp)
  · next hne =>
    simp only [Option.some.injEq, Prod.mk.injEq] at h
    obtain ⟨rfl, rfl⟩ := h
    intro hnil
    simp only [spelling, List.append_eq_nil_iff] at hnil
    obtain ⟨⟨hw, hf⟩, -⟩ := hnil
    refine hne ⟨hw, ?_⟩
    cases hfr : (scanFraction (leadingDigits cs) (afterDigits cs)).1 with
    | none => rfl
    | some d => rw [hfr] at hf; exact absurd hf (by simp [fractionSpelling])

end LiveSheet
