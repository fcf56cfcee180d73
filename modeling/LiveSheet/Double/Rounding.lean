import LiveSheet.Double.Basic

namespace LiveSheet

/-!
# Rounding to the nearest double

* `Double.roundHalfEven` — a quotient of naturals, rounded to the nearest whole number, a half to
  the even neighbour.
* `Double.nearest` — the rank whose point is nearest to a quotient; of two equally near ranks the
  even one, because a rank and its significand have the same last bit.
* `Double.ofRatio` — the double nearest to a quotient.  A value that rounds to rank `limit` or more
  is infinite, which is the rule for overflow.
-/

namespace Double

/-- `num / den` to the nearest whole number, a half to the even one. -/
def roundHalfEven (num den : Nat) : Nat :=
  let q := num / den
  let r := num % den
  if 2 * r < den ∨ (2 * r = den ∧ q % 2 = 0) then q else q + 1

/-- The spacing, as a power of two, in which a significand of `num / den` has 53 bits. -/
def spacing (num den : Nat) : Nat := (num / den).log2 - 52

/-- The rank of the point nearest to `num / den` units.  In a block of spacing `2 ^ s` the rank is
    `s` blocks plus the significand; a significand that rounds up to `2 ^ 53` lands on the first
    rank of the next block. -/
def nearest (num den : Nat) : Nat :=
  let s := spacing num den
  s * block + roundHalfEven num (den * Nat.pow 2 s)

/-- The double nearest to `num / den` units of `2 ^ -1074`, with the given sign. -/
def ofRatio (negative : Bool) (num den : Nat) : Double :=
  if h : nearest num den < limit then .finite negative ⟨nearest num den, h⟩
  else .infinite negative

end Double

end LiveSheet
