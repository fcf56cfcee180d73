import LiveSheet.Decimal.Reading

namespace LiveSheet

/-!
# The shortest decimal of a double

Of all decimals that read back as a given positive finite double, those with the fewest digits are
taken, and of those the nearest one; of two equally near the larger.  A decimal with `n` digits lies
on the grid of multiples of a power of ten.  If any point of a grid reads back, so does one of the
double's two neighbours on that grid, so only these two are tried.

* `Decimal` — a coefficient and a power of ten.
* `Double.candidate` — the nearer of the two neighbours on a grid that reads back.
* `Double.shortest` — the first candidate with `1, 2, …, 17` digits.
-/

/-- The number `coefficient * 10 ^ scale`. -/
structure Decimal where
  coefficient : Nat
  scale : Int
deriving DecidableEq, Repr

/-- The digits of the coefficient, without the zeros at its end. -/
def Decimal.digits (d : Decimal) : List Char :=
  ((Nat.toDigits 10 d.coefficient).reverse.dropWhile (· == '0')).reverse

/-- The place of the point: the decimal is `0.` followed by its digits, times ten to this power. -/
def Decimal.place (d : Decimal) : Int := (Nat.toDigits 10 d.coefficient).length + d.scale

namespace Double

/-- Whether a decimal reads back as the double of rank `r`. -/
def readsBack (r : Nat) (d : Decimal) : Bool :=
  match ofDecimal false d.coefficient d.scale with
  | .finite false s => s.val == r
  | _ => false

/-- The value of rank `r` divided by `10 ^ scale`, as a quotient. -/
def scaledRatio (r : Nat) (scale : Int) : Nat × Nat :=
  if 0 ≤ scale then (point r, unitsPerOne * Nat.pow 10 scale.toNat)
  else (point r * Nat.pow 10 (-scale).toNat, unitsPerOne)

/-- The place of the first digit of rank `r`: its value is below ten to this power and not below the
    power before it.  Every positive double exceeds `10 ^ -400`. -/
def leadingPlace (r : Nat) : Int :=
  let whole := (scaledRatio r (-400)).1 / (scaledRatio r (-400)).2
  (Nat.toDigits 10 whole).length - 400

/-- The grid point at or below rank `r` on the grid of `10 ^ scale`. -/
def gridFloor (r : Nat) (scale : Int) : Decimal :=
  ⟨(scaledRatio r scale).1 / (scaledRatio r scale).2, scale⟩

/-- The grid point after `gridFloor`. -/
def gridNext (r : Nat) (scale : Int) : Decimal := ⟨(gridFloor r scale).coefficient + 1, scale⟩

/-- Whether rank `r` lies strictly nearer to `gridFloor` than to `gridNext`. -/
def nearerToFloor (r : Nat) (scale : Int) : Bool :=
  decide (2 * ((scaledRatio r scale).1 % (scaledRatio r scale).2) < (scaledRatio r scale).2)

/-- The neighbour of rank `r` on the grid of `10 ^ scale` that reads back; of two the nearer, and at
    equal distance the larger. -/
def candidate (r : Nat) (scale : Int) : Option Decimal :=
  let low := gridFloor r scale
  let high := gridNext r scale
  match readsBack r low, readsBack r high with
  | true, true => some (if nearerToFloor r scale then low else high)
  | true, false => some low
  | false, true => some high
  | false, false => none

/-- The shortest decimal that reads back as the double of rank `r`.  Seventeen digits always
    suffice, because the grid is then finer than the gap between doubles. -/
def shortest (r : Nat) : Decimal :=
  let place := leadingPlace r
  let withDigits (n : Nat) := candidate r (place - n)
  ((List.range' 1 17).findSome? withDigits).getD (gridFloor r (place - 17))

end Double

end LiveSheet
