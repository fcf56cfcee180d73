import LiveSheet.Decimal.Numeral
import LiveSheet.Double.Rounding

namespace LiveSheet

/-!
# Reading numbers

A decimal is read as the double nearest to it, a half to the even neighbour.

* `Double.ofDecimal` — the double nearest to `coefficient * 10 ^ scale`.
* `Double.read` — a whole text: an optional sign, then a numeral or one of the words `inf`,
  `infinity` and `nan` in any case.
-/

namespace Double

/-- The quotient, in units, that `coefficient * 10 ^ scale` stands for. -/
def decimalRatio (coefficient : Nat) (scale : Int) : Nat × Nat :=
  if 0 ≤ scale then (coefficient * Nat.pow 10 scale.toNat * unitsPerOne, 1)
  else (coefficient * unitsPerOne, Nat.pow 10 (-scale).toNat)

/-- The double nearest to `coefficient * 10 ^ scale`.  Scales that can only give infinity or zero
    are answered without raising ten to them: a coefficient of at least one times `10 ^ 400` is
    beyond every double, and one with `b` bits is below `10 ^ b`. -/
def ofDecimal (negative : Bool) (coefficient : Nat) (scale : Int) : Double :=
  if coefficient = 0 then .finite negative zeroRank
  else if 400 < scale then .infinite negative
  else if scale + coefficient.log2 < -400 then .finite negative zeroRank
  else ofRatio negative (decimalRatio coefficient scale).1 (decimalRatio coefficient scale).2

/-- The double that a numeral stands for. -/
def ofNumeral (negative : Bool) (n : Numeral) : Double := ofDecimal negative n.coefficient n.scale

/-- The values that are written as words. -/
def ofWord (negative : Bool) (cs : List Char) : Option Double :=
  let word := cs.map Char.toLower
  if word = ['i', 'n', 'f'] ∨ word = ['i', 'n', 'f', 'i', 'n', 'i', 't', 'y'] then
    some (.infinite negative)
  else if word = ['n', 'a', 'n'] then some .nan
  else none

/-- Splits a sign off. -/
def splitSign : List Char → Bool × List Char
  | '-' :: rest => (true, rest)
  | '+' :: rest => (false, rest)
  | rest => (false, rest)

/-- The double that a whole text stands for, if it is a number. -/
def read (cs : List Char) : Option Double :=
  let signed := splitSign cs
  match Numeral.scan signed.2 with
  | some (n, []) => some (ofNumeral signed.1 n)
  | _ => ofWord signed.1 signed.2

end Double

end LiveSheet
