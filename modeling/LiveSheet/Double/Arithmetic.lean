import LiveSheet.Double.Rounding

namespace LiveSheet

/-!
# Arithmetic on doubles

Each operation on finite operands takes the exact result, a quotient of whole numbers of units, and
rounds it once.  `units` is the exact signed value of a finite double.
-/

namespace Double

/-- The signed value of a finite double in units of `2 ^ -1074`. -/
def units (negative : Bool) (rank : Nat) : Int :=
  if negative then -(point rank : Int) else point rank

/-- Changes the sign. -/
def neg : Double → Double
  | .nan => .nan
  | .infinite s => .infinite !s
  | .finite s r => .finite (!s) r

/-- The sum.  A sum that is exactly zero is negative only if both operands are. -/
def add : Double → Double → Double
  | .nan, _ => .nan
  | _, .nan => .nan
  | .infinite s, .infinite t => if s = t then .infinite s else .nan
  | .infinite s, .finite _ _ => .infinite s
  | .finite _ _, .infinite t => .infinite t
  | .finite s a, .finite t b =>
    let total := units s a.val + units t b.val
    let negative := if total = 0 then s && t else decide (total < 0)
    ofRatio negative total.natAbs 1

/-- The difference is the sum with the second operand's sign changed. -/
def sub (x y : Double) : Double := add x y.neg

/-- The product; zero times infinity is not a number. -/
def mul : Double → Double → Double
  | .nan, _ => .nan
  | _, .nan => .nan
  | .infinite s, .infinite t => .infinite (s != t)
  | .infinite s, .finite t b => if b.val = 0 then .nan else .infinite (s != t)
  | .finite s a, .infinite t => if a.val = 0 then .nan else .infinite (s != t)
  | .finite s a, .finite t b => ofRatio (s != t) (point a.val * point b.val) unitsPerOne

/-- The quotient; a zero divisor gives infinity, or no number for a zero dividend. -/
def div : Double → Double → Double
  | .nan, _ => .nan
  | _, .nan => .nan
  | .infinite _, .infinite _ => .nan
  | .infinite s, .finite t _ => .infinite (s != t)
  | .finite s _, .infinite t => .finite (s != t) zeroRank
  | .finite s a, .finite t b =>
    if b.val = 0 then (if a.val = 0 then .nan else .infinite (s != t))
    else ofRatio (s != t) (point a.val * unitsPerOne) (point b.val)

end Double

end LiveSheet
