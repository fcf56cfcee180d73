namespace LiveSheet

/-!
# Binary64 numbers

The finite non-negative doubles are numbered `0, 1, 2, …` in increasing order.  That number is the
*rank* of a double, and it is also the double's bit pattern.  Everything about a finite double is
said through its rank:

* `Double.point` — the value of rank `r`, as a whole number of units of `2 ^ -1074`.  The sequence
  goes on past the largest finite double, so that rounding needs no special case at the top.
* `Double` — a double: not a number, an infinity, or a sign with a rank below `Double.limit`.
* `Double.ofBits`, `Double.toBits` — the interchange format.
-/

namespace Double

/-- The number of ranks in a block, `2 ^ 52`.  In a block all points are equally far apart. -/
def block : Nat := 0x10000000000000

/-- The significand of rank `r`: in the first block it is the rank, above it the leading bit is
    implied. -/
def significand (r : Nat) : Nat := if r < block then r else block + r % block

/-- The spacing at rank `r` is `2 ^ shift r` units.  The first two blocks share the spacing one. -/
def shift (r : Nat) : Nat := r / block - 1

/-- The value of rank `r` in units of `2 ^ -1074`. -/
def point (r : Nat) : Nat := significand r * Nat.pow 2 (shift r)

/-- The number of units in one. -/
def unitsPerOne : Nat := Nat.pow 2 1074

/-- The rank of `2 ^ 1024`, the first point beyond the finite doubles. -/
def limit : Nat := 0x7ff * block

/-- The rank of zero. -/
def zeroRank : Fin limit := ⟨0, by decide⟩

end Double

/-- A binary64 number.  All patterns that are not a number count as one value. -/
inductive Double where
  | nan
  | infinite (negative : Bool)
  | finite (negative : Bool) (rank : Fin Double.limit)
deriving DecidableEq, Repr

namespace Double

instance : Inhabited Double := ⟨.nan⟩

/-- Whether the number is neither infinite nor not a number. -/
def isFinite : Double → Bool
  | .finite _ _ => true
  | _ => false

/-- Whether the number is a zero of either sign. -/
def isZero : Double → Bool
  | .finite _ r => r.val == 0
  | _ => false

/-- Numeric equality: the two zeros are equal, and `nan` differs from everything. -/
def equals : Double → Double → Bool
  | .nan, _ => false
  | x, y => x == y || (x.isZero && y.isZero)

/-! ### Interchange format -/

/-- The weight of the sign in a bit pattern, `2 ^ 63`. -/
def signBit : Nat := 0x8000000000000000

/-- Reads a bit pattern: sign, then rank; ranks from `limit` on are infinite or not numbers. -/
def ofBits (bits : UInt64) : Double :=
  let negative := decide (signBit ≤ bits.toNat)
  let r := bits.toNat % signBit
  if h : r < limit then .finite negative ⟨r, h⟩
  else if r = limit then .infinite negative
  else .nan

/-- The bit pattern of a double; `nan` has the quiet positive one. -/
def toBits (x : Double) : UInt64 :=
  let signed (negative : Bool) (r : Nat) := UInt64.ofNat (if negative then signBit + r else r)
  match x with
  | .nan => signed false (limit + block / 2)
  | .infinite negative => signed negative limit
  | .finite negative r => signed negative r.val

end Double

end LiveSheet
